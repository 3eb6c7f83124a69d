/-!
Reading decimal literals. `Literal.read?` splits a text into sign, digits and exponent, and
`ofScientific` gives the binary64 number nearest to a decimal, for exponents of any size.
-/

namespace AnimatedCanvas.Decimal

def digitsValue (cs : List Char) : Nat :=
  cs.foldl (fun n c => 10 * n + (c.toNat - '0'.toNat)) 0

/-- The number nearest to `m * 10 ^ e`. Magnitudes beyond every finite number and below half the
least positive one are settled by their size alone. -/
def ofScientific (m : Nat) (e : Int) : Float :=
  let size := m.log2 * 30103 / 100000 + e
  if m = 0 then 0.0
  else if 310 < size then Float.ofBits 0x7ff0000000000000
  else if size < -345 then 0.0
  else Float.ofScientific m (e < 0) e.natAbs

/-- A literal `whole.fraction e exponent`, both digit runs possibly empty. -/
structure Literal where
  whole : List Char
  fraction : List Char
  exponent : Int

namespace Literal

def digits (cs : List Char) : List Char × List Char :=
  (cs.takeWhile Char.isDigit, cs.dropWhile Char.isDigit)

/-- Splits off a sign; `true` stands for minus. -/
def sign : List Char → Bool × List Char
  | '-' :: cs => (true, cs)
  | '+' :: cs => (false, cs)
  | cs => (false, cs)

def exponent? : List Char → Option Int
  | [] => some 0
  | c :: cs =>
    if c = 'e' ∨ c = 'E' then
      let (negative, cs) := sign cs
      if cs.isEmpty || !cs.all Char.isDigit then none
      else
        let n : Int := digitsValue cs
        some (if negative then -n else n)
    else none

def read? (cs : List Char) : Option Literal :=
  let (whole, rest) := digits cs
  let (fraction, rest) := match rest with
    | '.' :: rest => digits rest
    | rest => ([], rest)
  if whole.isEmpty && fraction.isEmpty then none
  else (exponent? rest).map (⟨whole, fraction, ·⟩)

def toFloat (l : Literal) : Float :=
  ofScientific (digitsValue (l.whole ++ l.fraction)) (l.exponent - l.fraction.length)

end Literal

inductive LiteralError where
  | empty
  | malformed
deriving DecidableEq

def LiteralError.message : LiteralError → String
  | .empty => "cannot parse float from empty string"
  | .malformed => "invalid float literal"

/-- Reads a number: an optional sign, then `inf`, `infinity` or `nan` in any case, or a literal. -/
def read (text : String) : Except LiteralError Float :=
  let cs := text.toList
  if cs.isEmpty then .error .empty
  else
    let (negative, cs) := Literal.sign cs
    let word := String.ofList (cs.map Char.toLower)
    let magnitude :=
      if word = "nan" then some (Float.ofBits 0x7ff8000000000000)
      else if word = "inf" ∨ word = "infinity" then some (Float.ofBits 0x7ff0000000000000)
      else (Literal.read? cs).map Literal.toFloat
    match magnitude with
    | none => .error .malformed
    | some x => .ok (if negative then -x else x)

end AnimatedCanvas.Decimal
