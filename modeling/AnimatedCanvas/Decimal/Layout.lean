import AnimatedCanvas.Decimal.Shortest

/-!
Laying out a number as text. The digits are always the shortest that read back; a `Layout` fixes
where positional writing ends, how the rest is spelled, and which of two equally near decimals is
written.
-/

namespace AnimatedCanvas.Decimal

structure Layout where
  tie : Tie
  positional : Int → Bool
  /-- What follows a number without fractional digits in positional writing. -/
  whole : String
  plus : String
  notANumber : String
  infinite : String
  negativeInfinite : String

def positionalText (whole : String) (d : Decimal) : String :=
  let n := d.digits.length
  if d.point ≤ 0 then
    "0." ++ String.ofList (List.replicate (-d.point).toNat '0' ++ d.digits)
  else if n ≤ d.point.toNat then
    String.ofList (d.digits ++ List.replicate (d.point.toNat - n) '0') ++ whole
  else
    String.ofList (d.digits.take d.point.toNat) ++ "." ++ String.ofList (d.digits.drop d.point.toNat)

def exponentText (plus : String) (d : Decimal) : String :=
  let e := d.point - 1
  let mantissa := match d.digits with
    | [] => "0"
    | [c] => String.ofList [c]
    | c :: rest => String.ofList (c :: '.' :: rest)
  let sign := if e < 0 then "-" else plus
  mantissa ++ "e" ++ sign ++ toString e.natAbs

def Layout.decimal (l : Layout) (d : Decimal) : String :=
  if l.positional d.point then positionalText l.whole d else exponentText l.plus d

def Layout.magnitude (l : Layout) (bits : UInt64) : String :=
  if bits = 0 then "0" ++ l.whole else l.decimal ((RoundingInterval.ofBits bits).shortest l.tie)

/-- The text of a number. A zero keeps its sign, and a value that is not a number has none. -/
def Layout.text (l : Layout) (x : Float) : String :=
  let bits := x.toBits
  let size := bits &&& 0x7fffffffffffffff
  if size > 0x7ff0000000000000 then l.notANumber
  else if size = 0x7ff0000000000000 then
    if bits = size then l.infinite else l.negativeInfinite
  else if bits = size then l.magnitude size
  else "-" ++ l.magnitude size

/-- Numbers in drawings, messages and reports: never an exponent, and no trailing `.0`; a tie goes
up. -/
def plain : Layout where
  tie := .up
  positional _ := true
  whole := ""
  plus := ""
  notANumber := "NaN"
  infinite := "inf"
  negativeInfinite := "-inf"

/-- Numbers in JSON: positional from 1e-5 up to 1e16, `null` for what JSON cannot express; a tie goes
to the even digit. -/
def json : Layout where
  tie := .even
  positional point := -4 ≤ point && point ≤ 16
  whole := ".0"
  plus := "+"
  notANumber := "null"
  infinite := "null"
  negativeInfinite := "null"

/-- Numbers in YAML: as in JSON, but without a plus in the exponent. -/
def yaml : Layout where
  tie := .even
  positional point := -4 ≤ point && point ≤ 16
  whole := ".0"
  plus := ""
  notANumber := ".nan"
  infinite := ".inf"
  negativeInfinite := "-.inf"

def text (x : Float) : String := plain.text x

end AnimatedCanvas.Decimal
