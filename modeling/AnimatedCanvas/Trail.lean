import AnimatedCanvas.Geometry
import AnimatedCanvas.Memory

/-!
The trail of a particle: its latest positions, the oldest first, at most `cap` of them.
-/

namespace AnimatedCanvas

structure Trail where
  points : List Point
  cap : Nat

namespace Trail

def empty (cap : Nat) : Trail := ⟨[], cap⟩

/-- The bytes of a point in memory. -/
def pointBytes : Nat := 16

/-- An empty trail, with room for all the points that it may get. -/
def create? (cap : Nat) : Option Trail := do
  Memory.reserve? pointBytes cap
  return empty cap

def evict (cap : Nat) : List Point → List Point
  | [] => []
  | oldest :: later =>
    if (oldest :: later).length > cap then evict cap later else oldest :: later

/-- Adds the newest point and makes room for it. A trail that has no room at all takes no point. -/
def push (t : Trail) (p : Point) : Trail :=
  if t.cap = 0 then t else { t with points := evict t.cap (t.points ++ [p]) }

def length (t : Trail) : Nat := t.points.length

def isEmpty (t : Trail) : Bool := t.points.isEmpty

end Trail
end AnimatedCanvas
