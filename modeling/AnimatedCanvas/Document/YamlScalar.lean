import AnimatedCanvas.Decimal.Literal
import AnimatedCanvas.Document.Value
import AnimatedCanvas.Document.YamlNode

/-!
What YAML scalars stand for, and YAML trees as document values.

A plain scalar is a null, a truth value, a number or a text by its characters alone. Local tags, those
with a single exclamation mark, name values; the standard ones for null, truth values and numbers
insist on their kind.
-/

namespace AnimatedCanvas.Yaml

/-! ## Plain scalars -/

def isNullText (s : String) : Bool := ["null", "Null", "NULL", "~"].contains s

def flagText? (s : String) : Option Bool :=
  if ["true", "True", "TRUE"].contains s then some true
  else if ["false", "False", "FALSE"].contains s then some false
  else none

def digitsText? (base : Nat) (cs : List Char) : Option Nat :=
  if cs.isEmpty then none
  else
    cs.foldl (fun n c => do
      let d ← Text.hexDigit? c
      if d < base then return base * (← n) + d else none) (some 0)

/-- Digits after a zero, perhaps with a sign before it: a text, not a number. -/
def hasLeadingZero (cs : List Char) : Bool :=
  match (Decimal.Literal.sign cs).2 with
  | '0' :: c :: cs => (c :: cs).all Char.isDigit
  | _ => false

def wholeText? : List Char → Option Nat
  | '0' :: 'x' :: cs => digitsText? 16 cs
  | '0' :: 'o' :: cs => digitsText? 8 cs
  | '0' :: 'b' :: cs => digitsText? 2 cs
  | cs => if hasLeadingZero cs then none else digitsText? 10 cs

def signedText? : List Char → Option (Bool × Nat)
  | '-' :: cs => (wholeText? cs).map (true, ·)
  | '+' :: cs => (wholeText? cs).map (false, ·)
  | cs => (wholeText? cs).map (false, ·)

def naturalText? (s : String) : Option Nat :=
  match signedText? s.toList with
  | some (false, n) => if n < Nat.pow 2 64 then some n else none
  | _ => none

def realText? (s : String) : Option Float :=
  if [".inf", ".Inf", ".INF", "+.inf", "+.Inf", "+.INF"].contains s then
    some (Float.ofBits 0x7ff0000000000000)
  else if ["-.inf", "-.Inf", "-.INF"].contains s then some (Float.ofBits 0xfff0000000000000)
  else if [".nan", ".NaN", ".NAN"].contains s then some (Float.ofBits 0x7ff8000000000000)
  else
    match Decimal.read s with
    | .ok x => if x.isFinite then some x else none
    | .error _ => none

/-- What a plain scalar stands for. A whole number of more than 64 bits is refused while 128 would
do, and is a real beyond that. -/
def plainValue? (s : String) : Option Value :=
  if s.isEmpty || isNullText s then some .null
  else
    match flagText? s with
    | some b => some (.flag b)
    | none =>
      let real :=
        if hasLeadingZero s.toList then some (.text s)
        else
          match realText? s with
          | some x => some (.real x)
          | none => some (.text s)
      match signedText? s.toList with
      | some (false, n) =>
        if n < Nat.pow 2 64 then some (.count n) else if n < Nat.pow 2 128 then none else real
      | some (true, n) =>
        if n = 0 then some (.count 0)
        else if n ≤ Nat.pow 2 63 then some (.number (.negative (-n)))
        else if n ≤ Nat.pow 2 127 then none
        else real
      | none => real

/-! ## Tags -/

def nullTag : String := "tag:yaml.org,2002:null"
def flagTag : String := "tag:yaml.org,2002:bool"
def wholeTag : String := "tag:yaml.org,2002:int"
def realTag : String := "tag:yaml.org,2002:float"

def localName? : Option String → Option String
  | none => none
  | some tag =>
    match tag.toList with
    | '!' :: name => some (String.ofList name)
    | _ => none

def wholeValue? (s : String) : Option Value :=
  match signedText? s.toList with
  | some (false, n) => if n < Nat.pow 2 64 then some (.count n) else none
  | some (true, n) =>
    if n = 0 then some (.count 0)
    else if n ≤ Nat.pow 2 63 then some (.number (.negative (-n)))
    else none
  | none => none

def scalarValue? (tag : Option String) (style : ScalarStyle) (s : String) : Option Value :=
  if tag == some flagTag then (flagText? s).map .flag
  else if tag == some wholeTag then wholeValue? s
  else if tag == some realTag then (realText? s).map .real
  else if tag == some nullTag then if isNullText s then some .null else none
  else if tag.isNone && style == .plain then plainValue? s
  else some (.text s)

/-! ## Trees as values -/

namespace Tree

def follow? (t : Tree) : Node → Option Node
  | .alias anchor => t.resolve? anchor
  | node => some node

def spend? (t : Tree) : Node → StateT Nat Option Node
  | .alias anchor => fun budget =>
    match budget with
    | 0 => none
    | budget + 1 => (t.resolve? anchor).map (·, budget)
  | node => pure node

def mapValue? (entries : List (Value × Value)) : Option Value :=
  let fresh := entries.foldl (fun seen (k, v) => do
    let seen ← seen
    if seen.any (fun (k', _) => k'.same k) then none else some (seen ++ [(k, v)])) (some [])
  fresh.map .map

def named? (tag : Option String) (content : Value) : Option Value :=
  match localName? tag with
  | none => some content
  | some name => if name.isEmpty then none else some (.tagged name content)

/-- A node as a value; `inner` gives the values of a collection's parts, and is absent where nothing
may be nested any further. -/
def level? (t : Tree) (inner : Option (Node → StateT Nat Option Value)) (node : Node) :
    StateT Nat Option Value := do
  match ← t.spend? node with
  | .scalar tag style s =>
    let content :=
      if (localName? tag).isNone then scalarValue? tag style s
      else if style == .plain then plainValue? s
      else some (.text s)
    StateT.lift (content.bind (named? tag))
  | .list tag items =>
    match inner with
    | none => failure
    | some inner =>
      let items ← items.mapM inner
      StateT.lift (named? tag (.list items))
  | .map tag entries =>
    match inner with
    | none => failure
    | some inner =>
      let entries ← entries.mapM fun (k, v) => do return (← inner k, ← inner v)
      StateT.lift ((mapValue? entries).bind (named? tag))
  | .alias _ => failure

def valueOf? (t : Tree) : Nat → Node → StateT Nat Option Value
  | 0 => t.level? none
  | depth + 1 => t.level? (some (t.valueOf? depth))

def budget (t : Tree) : Nat := 100 * t.parts

def maxDepth : Nat := 128

def value? (t : Tree) : Option Value := ((t.valueOf? maxDepth t.root).run t.budget).map (·.1)

end Tree
end AnimatedCanvas.Yaml
