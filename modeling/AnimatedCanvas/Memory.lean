/-!
Reserving memory. A reservation asks at once for room for a number of items; one that is larger than a
machine can address ends the program, which is `none`.

Functions `f?` reserve what `f` needs and then do what `f` does.
-/

namespace AnimatedCanvas.Memory

/-- The most bytes of one reservation. -/
def limit : Nat := 0x7fffffffffffffff

def Holds (bytes count : Nat) : Prop := count * bytes ≤ limit

instance (bytes count : Nat) : Decidable (Holds bytes count) :=
  inferInstanceAs (Decidable (count * bytes ≤ limit))

/-- Reserves room for `count` items of `bytes` bytes each. -/
def reserve? (bytes count : Nat) : Option Unit := if Holds bytes count then some () else none

end AnimatedCanvas.Memory
