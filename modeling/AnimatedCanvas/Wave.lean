import AnimatedCanvas.Color
import AnimatedCanvas.Geometry

/-!
Rings that a pointer leaves behind. A wave only moves forward: its radius grows and its opacity
falls with every frame, until one of them reaches its bound and the wave has expired.
-/

namespace AnimatedCanvas

structure Wave where
  center : Point
  radius : Float
  maxRadius : Float
  /-- Radius gained per frame. -/
  speed : Float
  opacity : Float
  /-- Opacity lost per frame. -/
  fade : Float
  color : Color

namespace Wave

inductive State where
  | growing
  | expired
deriving DecidableEq

def start (center : Point) (maxRadius speed opacity fade : Float) (color : Color) : Wave :=
  { center, radius := 0.0, maxRadius, speed, opacity := clampTo 0.0 1.0 opacity, fade, color }

/-- A wave has expired once it is fully grown or invisible. -/
def state (w : Wave) : State :=
  if w.radius ≥ w.maxRadius || w.opacity ≤ 0.0 then .expired else .growing

def advance (w : Wave) : Wave :=
  { w with
    radius := w.radius + nonnegative w.speed
    opacity := nonnegative (w.opacity - nonnegative w.fade) }

def frame (w : Wave) : State × Wave :=
  let w := w.advance
  (w.state, w)

def advanceAll (ws : List Wave) : List Wave :=
  (ws.map advance).filter (·.state == .growing)

end Wave
end AnimatedCanvas
