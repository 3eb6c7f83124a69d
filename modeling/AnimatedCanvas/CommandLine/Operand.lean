import AnimatedCanvas.Decimal.Literal
import AnimatedCanvas.Geometry
import AnimatedCanvas.Text.Blank
import AnimatedCanvas.Text.Quoted

/-!
Values on the command line: extents, points and natural numbers.
-/

namespace AnimatedCanvas.CommandLine

/-- Reads an extent in logical pixels: a finite number of at least zero. -/
def extent (text : String) : Except String Float :=
  match Decimal.read (Text.trim text) with
  | .error e => .error ("bad extent " ++ Text.quoted text ++ ": " ++ e.message)
  | .ok x =>
    if x.isFinite && x ≥ 0.0 then .ok x
    else .error ("extent must be a finite number >= 0, got " ++ Text.quoted text)

def coordinate (text : String) : Except String Float :=
  match Decimal.read (Text.trim text) with
  | .error e => .error ("bad coordinate " ++ Text.quoted text ++ ": " ++ e.message)
  | .ok x => .ok x

def point (text : String) : Except String Point :=
  match text.toList.span (· != ',') with
  | (_, []) => .error ("expected X,Y, got " ++ Text.quoted text)
  | (x, _ :: y) => do
    let x ← coordinate (String.ofList x)
    let y ← coordinate (String.ofList y)
    return ⟨x, y⟩

/-- Reads a natural number below `2 ^ 64`, with or without a plus sign. -/
def natural? (text : String) : Option Nat :=
  let digits := match text.toList with
    | '+' :: digits => digits
    | digits => digits
  if digits.isEmpty || !digits.all Char.isDigit then none
  else
    let n := Decimal.digitsValue digits
    if n < Nat.pow 2 64 then some n else none

end AnimatedCanvas.CommandLine
