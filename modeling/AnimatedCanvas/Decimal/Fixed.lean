import AnimatedCanvas.Decimal.Layout

/-!
Numbers with a fixed count of places after the point. The exact binary value is rounded once; half
of a unit goes to the even neighbour.
-/

namespace AnimatedCanvas.Decimal

/-- The quotient `n / d` rounded to the nearest natural number, and half of a unit to the even one. -/
def roundDiv (n d : Nat) : Nat :=
  let q := n / d
  let r := n % d
  if 2 * r < d then q
  else if d < 2 * r then q + 1
  else if q % 2 = 0 then q else q + 1

def placesText (places c : Nat) : String :=
  let digits := Nat.toDigits 10 c
  let padded := List.replicate (places + 1 - digits.length) '0' ++ digits
  let whole := padded.length - places
  String.ofList (padded.take whole ++ '.' :: padded.drop whole)

def fixedMagnitude (places : Nat) (bits : UInt64) : String :=
  let r := RoundingInterval.ofBits bits
  placesText places
    (roundDiv (r.mid * Nat.pow 2 r.power.toNat * Nat.pow 10 places) (Nat.pow 2 (-r.power).toNat))

def fixed (places : Nat) (x : Float) : String :=
  let bits := x.toBits
  let size := bits &&& 0x7fffffffffffffff
  if size ≥ 0x7ff0000000000000 then text x
  else if bits = size then fixedMagnitude places size
  else "-" ++ fixedMagnitude places size

end AnimatedCanvas.Decimal
