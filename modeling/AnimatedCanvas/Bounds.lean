/-!
Keeping numbers in bounds. Comparisons with a value that is not a number are false, and each
function says which side such a value falls on.
-/

namespace AnimatedCanvas

/-- The number where it is positive, and zero otherwise; a value that is not a number gives zero. -/
def nonnegative (x : Float) : Float := if x > 0.0 then x else 0.0

/-- The number moved into `[lo, hi]`; a value that is not a number stays. -/
def clampTo (lo hi x : Float) : Float :=
  if x < lo then lo else if x > hi then hi else x

def ofCount (n : Nat) : Float := n.toUInt64.toFloat

end AnimatedCanvas
