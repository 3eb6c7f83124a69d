import AnimatedCanvas.Field
import AnimatedCanvas.Surface.Command

/-!
A frame of a particle field: backdrop, waves, links, trails and particles, in this order.
-/

namespace AnimatedCanvas.ParticleField

variable {γ : Type}

def backdropCommand (f : ParticleField γ) : DrawCommand :=
  match f.config.backdrop with
  | .clear => .clear
  | .fade color alpha => .fillRect .origin f.size (color.withAlpha alpha)

def waveCommand (c : WaveConfig) (w : Wave) : DrawCommand :=
  let color := w.color.withAlpha w.opacity
  match c.style with
  | .ring => .strokeCircle w.center w.radius color c.lineWidth
  | .glow => .fillGlow w.center w.radius color w.color.transparent

def waveCommands (f : ParticleField γ) : List DrawCommand :=
  (f.waves.filter (·.radius > 0.0)).map (waveCommand f.config.waves)

/-- The line between two particles that are close enough, the fainter the longer. -/
def link? (c : LinkConfig) (a b : Particle) : Option DrawCommand :=
  let distance := a.position.distance b.position
  if distance < c.distance then
    let opacity := (1.0 - distance / c.distance) * c.opacity
    some (.line a.position b.position (c.color.withAlpha opacity) c.width)
  else none

def links (c : LinkConfig) : List Particle → List DrawCommand
  | [] => []
  | p :: ps => ps.filterMap (link? c p) ++ links c ps

def linkCommands (f : ParticleField γ) : List DrawCommand :=
  let c := f.config.links
  if c.distance ≤ 0.0 || c.opacity ≤ 0.0 then [] else links c f.particles

/-- The dot of the `i`-th point of a trail. The oldest point is transparent and not drawn. -/
def trailDot? (c : TrailConfig) (p : Particle) (point : Point) (i : Nat) : Option DrawCommand :=
  let alpha := ofCount i / ofCount p.trail.length * p.opacity * c.opacity
  if alpha ≤ 0.0 then none
  else some (.fillCircle point (p.radius * c.scale) (p.color.withAlpha alpha))

def trailDots (c : TrailConfig) (p : Particle) : List DrawCommand :=
  p.trail.points.zipIdx.filterMap fun (point, i) => trailDot? c p point i

def trailCommands (f : ParticleField γ) : List DrawCommand :=
  f.particles.flatMap (trailDots f.config.trail)

def glow (c : FieldConfig) (p : Particle) : DrawCommand :=
  .fillGlow p.position (p.radius * c.glowScale) (p.color.withAlpha p.opacity) p.color.transparent

def core (c : FieldConfig) (p : Particle) : DrawCommand :=
  .fillCircle p.position p.radius (if c.solidCore then p.color else p.color.withAlpha p.opacity)

def particleDots (c : FieldConfig) (p : Particle) : List DrawCommand :=
  if c.glowScale > 0.0 then [glow c p, core c p] else [core c p]

def particleCommands (f : ParticleField γ) : List DrawCommand :=
  f.particles.flatMap (particleDots f.config)

def render (f : ParticleField γ) : List DrawCommand :=
  f.backdropCommand ::
    (f.waveCommands ++ f.linkCommands ++ f.trailCommands ++ f.particleCommands)

end AnimatedCanvas.ParticleField
