import AnimatedCanvas.Color
import AnimatedCanvas.Trail

/-!
Particles and their motion, one frame at a time.
-/

namespace AnimatedCanvas

structure Particle where
  x : Float
  y : Float
  speedX : Float
  speedY : Float
  radius : Float
  opacity : Float
  color : Color
  /-- Opacity lost per frame; zero for a particle that stays. -/
  fade : Float
  trail : Trail

namespace Particle

/-- The bytes of a particle in memory, without the points of its trail. -/
def bytes : Nat := 112

def position (p : Particle) : Point := ⟨p.x, p.y⟩

def isTransient (p : Particle) : Bool := p.fade > 0.0

def integrate (p : Particle) : Particle :=
  let x := p.x + p.speedX
  let y := p.y + p.speedY
  { p with x, y, trail := p.trail.push ⟨x, y⟩ }

/-- Pushes the particle away from `source` when it is closer than `radius`, the harder the closer;
a negative strength pulls. A particle at the source itself has no direction and stays. -/
def pushFrom (p : Particle) (source : Point) (radius strength : Float) : Particle :=
  let dx := p.x - source.x
  let dy := p.y - source.y
  let distance := (dx * dx + dy * dy).sqrt
  if distance ≥ radius || distance == 0.0 then p
  else
    let force := (radius - distance) / radius
    { p with
      speedX := p.speedX + dx / distance * force * strength
      speedY := p.speedY + dy / distance * force * strength }

def isOut (extent coordinate : Float) : Bool := coordinate < 0.0 || coordinate > extent

/-- A coordinate and its speed after the edges at zero and `extent`: outside of them the speed
turns around and the coordinate moves onto the edge. -/
def bounce (extent coordinate speed : Float) : Float × Float :=
  if isOut extent coordinate then (clampTo 0.0 (nonnegative extent) coordinate, -speed)
  else (coordinate, speed)

def isOutside (p : Particle) (bounds : Size) : Bool :=
  isOut bounds.width p.x || isOut bounds.height p.y

def reflect (p : Particle) (bounds : Size) : Particle :=
  let (x, speedX) := bounce bounds.width p.x p.speedX
  let (y, speedY) := bounce bounds.height p.y p.speedY
  { p with x, y, speedX, speedY }

def damp (p : Particle) (factor : Float) : Particle :=
  { p with speedX := p.speedX * factor, speedY := p.speedY * factor }

def fadeOut (p : Particle) : Particle :=
  if p.isTransient then { p with opacity := nonnegative (p.opacity - p.fade) } else p

def speed (p : Particle) : Float := (p.speedX * p.speedX + p.speedY * p.speedY).sqrt

end Particle
end AnimatedCanvas
