/-!
The shortest decimal of a binary64 number.

A positive finite number owns an interval of reals that round to it. `RoundingInterval.shortest`
searches the decimal grids of one, two, … seventeen significant digits for a point of that interval;
the first grid with a point wins, and of two points the one nearer to the number. Where both are
equally near, a `Tie` decides.
-/

namespace AnimatedCanvas

/-- The positive decimal `0.d₁d₂… * 10 ^ point`, most significant digit first. -/
structure Decimal where
  digits : List Char
  point : Int
deriving DecidableEq

namespace Decimal

def ofScaled (c : Nat) (exponent : Int) : Decimal :=
  let all := Nat.toDigits 10 c
  { digits := (all.reverse.dropWhile (· == '0')).reverse
    point := all.length + exponent }

inductive Tie where
  | up
  | even
deriving DecidableEq

def Tie.goesDown (t : Tie) (c : Nat) : Bool :=
  match t with
  | .up => false
  | .even => c % 2 == 0

/-- The reals that round to `mid * 2 ^ power`: from `low * 2 ^ power` to `high * 2 ^ power`, with both
ends when `closed`. -/
structure RoundingInterval where
  low : Nat
  mid : Nat
  high : Nat
  power : Int
  closed : Bool

namespace RoundingInterval

/-- The interval of the positive finite number with these bits, in quarters of its last place. The
lower neighbour of a power of two is only half as far away. -/
def ofBits (bits : UInt64) : RoundingInterval :=
  let exponent := (bits >>> 52 &&& 0x7ff).toNat
  let fraction := (bits &&& 0xfffffffffffff).toNat
  let mantissa := if exponent = 0 then fraction else fraction + Nat.pow 2 52
  { low := 4 * mantissa - (if fraction = 0 ∧ 1 < exponent then 1 else 2)
    mid := 4 * mantissa
    high := 4 * mantissa + 2
    power := (max exponent 1 : Nat) - 1077
    closed := mantissa % 2 == 0 }

/-- One step of the grid of multiples of `10 ^ exponent`, over the common unit of grid and interval. -/
def gridStep (r : RoundingInterval) (exponent : Int) : Nat :=
  Nat.pow 10 exponent.toNat * Nat.pow 2 (-r.power).toNat

/-- One unit `2 ^ power` of the interval, over the common unit of grid and interval. -/
def gridUnit (r : RoundingInterval) (exponent : Int) : Nat :=
  Nat.pow 2 r.power.toNat * Nat.pow 10 (-exponent).toNat

def holds (r : RoundingInterval) (exponent : Int) (c : Nat) : Bool :=
  let p := c * r.gridStep exponent
  let lo := r.low * r.gridUnit exponent
  let hi := r.high * r.gridUnit exponent
  if r.closed then lo ≤ p && p ≤ hi else lo < p && p < hi

def nearer (tie : Tie) (value step c : Nat) : Nat :=
  let middle := (2 * c + 1) * step
  if 2 * value < middle then c
  else if middle < 2 * value then c + 1
  else if tie.goesDown c then c else c + 1

def nearest? (r : RoundingInterval) (tie : Tie) (exponent : Int) : Option Nat :=
  let value := r.mid * r.gridUnit exponent
  let step := r.gridStep exponent
  let below := value / step
  let above := below + 1
  match r.holds exponent below, r.holds exponent above with
  | true, true => some (nearer tie value step below)
  | true, false => some below
  | false, true => some above
  | false, false => none

/-- The `k` with `10 ^ (k - 1) ≤ number < 10 ^ k`, from the binary length by `log₁₀ 2 ≈ 0.30103`. -/
def magnitude (r : RoundingInterval) : Int :=
  let k := (r.mid.log2 + r.power) * 30103 / 100000 + 1
  if r.gridStep k ≤ r.mid * r.gridUnit k then k + 1 else k

/-- The decimal with the fewest digits in the interval, and the nearest of those. -/
def shortest (r : RoundingInterval) (tie : Tie) : Decimal :=
  let k := r.magnitude
  let found := (List.range 17).findSome? fun (n : Nat) =>
    let exponent := k - (n + 1)
    (r.nearest? tie exponent).map (ofScaled · exponent)
  found.getD (ofScaled (r.mid * r.gridUnit (k - 17) / r.gridStep (k - 17)) (k - 17))

end RoundingInterval
end Decimal
end AnimatedCanvas
