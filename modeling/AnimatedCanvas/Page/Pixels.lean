import AnimatedCanvas.Geometry

/-!
Pixels of a page: from logical extents to those of a canvas, and from the window's coordinates to
those of an element.
-/

namespace AnimatedCanvas

/-- The number of device pixels per logical pixel: as reported, and one where that is no ratio. -/
def pixelRatio (reported : Float) : Float :=
  if reported.isFinite && reported > 0.0 then reported else 1.0

/-- The device pixels of an extent: rounded, halves away from zero, and at most `2 ^ 32 - 1`. What
is negative or not finite has none. -/
def backingExtent (extent ratio : Float) : Nat :=
  let pixels := (extent * ratio).round
  if pixels.isFinite && pixels > 0.0 then pixels.toUInt32.toNat else 0

def localPoint (client corner : Point) : Point := ⟨client.x - corner.x, client.y - corner.y⟩

end AnimatedCanvas
