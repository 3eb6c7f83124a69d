import AnimatedCanvas.Decimal.Literal
import AnimatedCanvas.Document.Value

/-!
Reading JSON.

`Json.read?` checks the grammar of the whole text. What a number or a text stands for is only asked
where it is used: a number too large for a real, or an escape that names half a character, does no
harm under a key that nobody reads.
-/

namespace AnimatedCanvas

structure JsonNumber where
  negative : Bool
  whole : List Char
  fraction : List Char
  exponent : Option (Bool × List Char)

namespace JsonNumber

/-- Adds digits to a 64-bit number while they fit; gives the number and how many did. -/
def absorb (n : Nat) : List Char → Nat × Nat
  | [] => (n, 0)
  | c :: cs =>
    let next := 10 * n + (c.toNat - '0'.toNat)
    if next < Nat.pow 2 64 then
      let (total, taken) := absorb next cs
      (total, taken + 1)
    else (n, 0)

def isWhole (n : JsonNumber) : Bool := n.fraction.isEmpty && n.exponent.isNone

def toNat? (n : JsonNumber) : Option Nat :=
  let (total, taken) := absorb 0 n.whole
  if !n.negative && n.isWhole && taken == n.whole.length then some total else none

/-- A 64-bit number scaled by a power of ten: one multiplication or division by the power nearest to
`10 ^ e`, after divisions by `1e308` for exponents below that. Fails where the result is infinite. -/
def scale? : Nat → Float → Int → Option Float
  | 0, x, _ => some x
  | steps + 1, x, e =>
    if e.natAbs ≤ 308 then
      let power := Decimal.ofScientific 1 e.natAbs
      if e ≥ 0 then
        let y := x * power
        if y.isInf then none else some y
      else some (x / power)
    else if x == 0.0 then some x
    else if e ≥ 0 then none
    else scale? steps (x / Decimal.ofScientific 1 308) (e + 308)

/-- The magnitude of the number. Digits beyond 64 bits only count for the exponent. -/
def magnitude? (n : JsonNumber) : Option Float :=
  let (whole, taken) := absorb 0 n.whole
  let dropped := n.whole.length - taken
  if n.isWhole && dropped == 0 then some whole.toUInt64.toFloat
  else
    let (total, places) := absorb whole n.fraction
    let start : Int := dropped - places
    match n.exponent with
    | none => scale? (start.natAbs / 308 + 1) total.toUInt64.toFloat start
    | some (negative, digits) =>
      let size := Decimal.digitsValue digits
      if size < Nat.pow 2 31 then
        let e := start + (if negative then -(size : Int) else size)
        scale? (e.natAbs / 308 + 1) total.toUInt64.toFloat e
      else if total = 0 ∨ negative then some 0.0
      else none

def toFloat? (n : JsonNumber) : Option Float :=
  n.magnitude?.map fun x => if n.negative then -x else x

def toNumber? (n : JsonNumber) : Option Number :=
  match n.toNat? with
  | some m => some (.natural m)
  | none =>
    let (total, taken) := absorb 0 n.whole
    if n.negative && n.isWhole && taken == n.whole.length && 0 < total && total ≤ Nat.pow 2 63 then
      some (.negative (-total))
    else n.toFloat?.map .real

end JsonNumber

/-- A JSON text, taken apart. A text is `none` where an escape names no character. -/
inductive Json where
  | null
  | flag (b : Bool)
  | number (n : JsonNumber)
  | text (s : Option String)
  | list (items : List Json)
  | object (entries : List (Option String × Json))

namespace Json

instance : Inhabited Json := ⟨.null⟩

abbrev Parser (α : Type) := List Char → Option (α × List Char)

def isSpace (c : Char) : Bool := c == ' ' || c == '\t' || c == '\n' || c == '\r'

def skipSpace (cs : List Char) : List Char := cs.dropWhile isSpace

def word (w : List Char) (cs : List Char) : Option (List Char) :=
  if w.isPrefixOf cs then some (cs.drop w.length) else none

/-! ## Texts -/

def unit? (a b c d : Char) : Option Nat := Text.hexValue? [a, b, c, d]

/-- The rest of a text after its opening quote: its characters, with escaped units as they stand. -/
def units? : Parser (List Nat)
  | [] => none
  | '"' :: cs => some ([], cs)
  | '\\' :: 'u' :: a :: b :: c :: d :: cs => do
    let n ← unit? a b c d
    let (ns, cs) ← units? cs
    return (n :: ns, cs)
  | '\\' :: c :: cs => do
    let n ← match c with
      | '"' => some 0x22
      | '\\' => some 0x5c
      | '/' => some 0x2f
      | 'b' => some 0x08
      | 'f' => some 0x0c
      | 'n' => some 0x0a
      | 'r' => some 0x0d
      | 't' => some 0x09
      | _ => none
    let (ns, cs) ← units? cs
    return (n :: ns, cs)
  | c :: cs =>
    if c.toNat < 0x20 then none
    else do
      let (ns, cs) ← units? cs
      return (c.toNat :: ns, cs)

def isHighUnit (n : Nat) : Bool := 0xD800 ≤ n && n ≤ 0xDBFF
def isLowUnit (n : Nat) : Bool := 0xDC00 ≤ n && n ≤ 0xDFFF

/-- The characters of a row of units; half a pair names none. -/
def characters? : List Nat → Option (List Char)
  | [] => some []
  | [n] => if isHighUnit n || isLowUnit n then none else some [Char.ofNat n]
  | n :: m :: ns =>
    if isHighUnit n then
      if isLowUnit m then
        (characters? ns).map (Char.ofNat (0x10000 + (n - 0xD800) * 0x400 + (m - 0xDC00)) :: ·)
      else none
    else if isLowUnit n then none
    else (characters? (m :: ns)).map (Char.ofNat n :: ·)

def text? : Parser (Option String) := fun cs => do
  let (ns, cs) ← units? cs
  return ((characters? ns).map String.ofList, cs)

/-! ## Numbers -/

def fraction? : Parser (List Char)
  | '.' :: cs =>
    let (digits, rest) := Decimal.Literal.digits cs
    if digits.isEmpty then none else some (digits, rest)
  | cs => some ([], cs)

def exponent? : Parser (Option (Bool × List Char))
  | [] => some (none, [])
  | c :: cs =>
    if c = 'e' ∨ c = 'E' then
      let (negative, cs) := Decimal.Literal.sign cs
      let (digits, rest) := Decimal.Literal.digits cs
      if digits.isEmpty then none else some (some (negative, digits), rest)
    else some (none, c :: cs)

def number? : Parser JsonNumber := fun cs => do
  let (negative, cs) := match cs with
    | '-' :: cs => (true, cs)
    | cs => (false, cs)
  let (whole, cs) := Decimal.Literal.digits cs
  if whole.isEmpty || (whole.head? == some '0' && whole.length != 1) then none
  else
    let (fraction, cs) ← fraction? cs
    let (exponent, cs) ← exponent? cs
    return ({ negative, whole, fraction, exponent }, cs)

/-! ## Values -/

mutual

/-- A value, blanks before it skipped; `fuel` bounds the number of nested steps. -/
def value? : Nat → Parser Json
  | 0, _ => none
  | fuel + 1, cs =>
    match skipSpace cs with
    | [] => none
    | '"' :: cs => (text? cs).map fun (s, cs) => (.text s, cs)
    | '[' :: cs =>
      match skipSpace cs with
      | ']' :: cs => some (.list [], cs)
      | cs => (items? fuel cs).map fun (vs, cs) => (.list vs, cs)
    | '\x7b' :: cs =>
      match skipSpace cs with
      | '\x7d' :: cs => some (.object [], cs)
      | cs => (entries? fuel cs).map fun (es, cs) => (.object es, cs)
    | 't' :: cs => (word ['r', 'u', 'e'] cs).map (.flag true, ·)
    | 'f' :: cs => (word ['a', 'l', 's', 'e'] cs).map (.flag false, ·)
    | 'n' :: cs => (word ['u', 'l', 'l'] cs).map (.null, ·)
    | cs => (number? cs).map fun (n, cs) => (.number n, cs)

def items? : Nat → Parser (List Json)
  | 0, _ => none
  | fuel + 1, cs => do
    let (v, cs) ← value? fuel cs
    match skipSpace cs with
    | ']' :: cs => return ([v], cs)
    | ',' :: cs =>
      let (vs, cs) ← items? fuel cs
      return (v :: vs, cs)
    | _ => none

def entries? : Nat → Parser (List (Option String × Json))
  | 0, _ => none
  | fuel + 1, cs =>
    match skipSpace cs with
    | '"' :: cs => do
      let (key, cs) ← text? cs
      match skipSpace cs with
      | ':' :: cs =>
        let (v, cs) ← value? fuel cs
        match skipSpace cs with
        | '\x7d' :: cs => return ([(key, v)], cs)
        | ',' :: cs =>
          let (es, cs) ← entries? fuel cs
          return ((key, v) :: es, cs)
        | _ => none
      | _ => none
    | _ => none

end

def read? (text : String) : Option Json :=
  let cs := text.toList
  match value? (2 * cs.length + 2) cs with
  | some (v, rest) => if (skipSpace rest).isEmpty then some v else none
  | none => none

/-! ## As a document value -/

mutual

def toValue? (depth : Nat) : Json → Option Value
  | .null => some .null
  | .flag b => some (.flag b)
  | .number n => n.toNumber?.map .number
  | .text s => s.map .text
  | .list items =>
    match depth with
    | 0 => none
    | depth + 1 => (itemValues? depth items).map .list
  | .object entries =>
    match depth with
    | 0 => none
    | depth + 1 => (entryValues? depth entries).map .map

def itemValues? (depth : Nat) : List Json → Option (List Value)
  | [] => some []
  | v :: rest => do return (← toValue? depth v) :: (← itemValues? depth rest)

def entryValues? (depth : Nat) : List (Option String × Json) → Option (List (Value × Value))
  | [] => some []
  | (key, v) :: rest => do
    return (.text (← key), ← toValue? depth v) :: (← entryValues? depth rest)

end

end Json
end AnimatedCanvas
