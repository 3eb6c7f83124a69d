import AnimatedCanvas.Bounds

/-!
Points and sizes of the drawing plane, in logical pixels.
-/

namespace AnimatedCanvas

structure Point where
  x : Float
  y : Float

namespace Point

def origin : Point := ⟨0.0, 0.0⟩

instance : Inhabited Point := ⟨origin⟩

def distance (a b : Point) : Float :=
  let dx := a.x - b.x
  let dy := a.y - b.y
  (dx * dx + dy * dy).sqrt

end Point

structure Size where
  width : Float
  height : Float

namespace Size

def zero : Size := ⟨0.0, 0.0⟩

instance : Inhabited Size := ⟨zero⟩

/-- An extent that is finite and not negative; anything else becomes zero. -/
def side (x : Float) : Float := if x.isFinite then nonnegative x else 0.0

def clamped (s : Size) : Size := ⟨side s.width, side s.height⟩

/-- Whether `p` lies beyond one of the edges by more than `margin`. -/
def isFarOutside (s : Size) (p : Point) (margin : Float) : Bool :=
  p.x < -margin || p.x > s.width + margin || p.y < -margin || p.y > s.height + margin

end Size
end AnimatedCanvas
