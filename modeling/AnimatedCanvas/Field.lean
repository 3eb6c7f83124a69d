import AnimatedCanvas.Config.Field
import AnimatedCanvas.Particle
import AnimatedCanvas.Wave

/-!
The particle field: particles that drift, bounce off the edges and flee the pointer, and waves that
pointer and clicks leave behind.

Each frame, every particle moves, feels the pointer, turns around at the edges, loses speed and, if
it came from a burst, opacity. Then surplus particles are retired and the waves advance.
-/

namespace AnimatedCanvas

/-- Sine and cosine, whose last digits are the platform's. -/
class Trigonometry where
  sin : Float → Float
  cos : Float → Float

instance : Trigonometry := ⟨Float.sin, Float.cos⟩

/-- A particle field; `γ` is its source of chance. -/
structure ParticleField (γ : Type) where
  config : FieldConfig
  size : Size
  particles : List Particle
  waves : List Wave
  pointer : Option Point
  random : γ
  frame : Nat

namespace ParticleField

open AnimatedCanvas.Random

variable {γ : Type} [Sampler γ]

/-! ## Populating -/

def restingParticle (c : FieldConfig) (size : Size) (g : γ) : Particle × γ :=
  let (color, g) := pick c.palette g
  let (x, g) := Span.sample ⟨0.0, size.width⟩ g
  let (y, g) := Span.sample ⟨0.0, size.height⟩ g
  let (speedX, g) := c.speed.sample g
  let (speedY, g) := c.speed.sample g
  let (radius, g) := c.radius.sample g
  let (opacity, g) := c.opacity.sample g
  ({ x, y, speedX, speedY, radius, opacity, color, fade := 0.0, trail := .empty c.trail.cap }, g)

def populate (f : ParticleField γ) : ParticleField γ :=
  let (particles, random) :=
    drawMany (restingParticle f.config f.size) f.config.targetCount f.random
  { f with particles, random }

/-- The field of a configuration, where the memory suffices: see `create?`. -/
def create (config : FieldConfig) (size : Size) (random : γ) :
    Except ConfigError (ParticleField γ) := do
  config.validate
  return populate
    { config, size := size.clamped, particles := [], waves := [], pointer := none, random
      frame := 0 }

/-! ## Bursts and waves -/

def fullTurn : Float := 6.283185307179586

def burstAngle (c : BurstConfig) (i : Nat) : Float := fullTurn * ofCount i / ofCount c.count

def burstParticle [Trigonometry] (c : FieldConfig) (source : Point) (i : Nat) (g : γ) :
    Particle × γ :=
  let angle := burstAngle c.burst i
  let (speed, g) := c.burst.speed.sample g
  let (color, g) := pick c.palette g
  let (radius, g) := c.burst.radius.sample g
  let (opacity, g) := c.burst.opacity.sample g
  ({ x := source.x, y := source.y
     speedX := Trigonometry.cos angle * speed, speedY := Trigonometry.sin angle * speed
     radius, opacity, color, fade := c.burst.fade, trail := .empty c.trail.cap }, g)

def spawnBurst [Trigonometry] (f : ParticleField γ) (source : Point) : ParticleField γ :=
  let (burst, random) :=
    drawEach (burstParticle f.config source) (List.range f.config.burst.count) f.random
  { f with particles := f.particles ++ burst, random }

def newWave (c : WaveConfig) (center : Point) (g : γ) : Wave × γ :=
  let (maxRadius, g) := c.maxRadius.sample g
  let (speed, g) := c.speed.sample g
  let (color, g) := pick c.palette g
  (.start center maxRadius speed c.opacity c.fade color, g)

def spawnWave (f : ParticleField γ) (center : Point) : ParticleField γ :=
  let (wave, random) := newWave f.config.waves center f.random
  { f with waves := f.waves ++ [wave], random }

/-! ## Pointer -/

/-- Moves the pointer; says whether it left a wave behind. -/
def pointerMove (f : ParticleField γ) (position : Point) : Bool × ParticleField γ :=
  if !f.config.interactive then (false, f)
  else
    let (leavesWave, random) := Sampler.chance f.config.waves.chance f.random
    let f := { f with pointer := some position, random }
    if leavesWave then (true, f.spawnWave position) else (false, f)

def pointerLeave (f : ParticleField γ) : ParticleField γ := { f with pointer := none }

def click [Trigonometry] (f : ParticleField γ) (position : Point) : ParticleField γ :=
  if !f.config.interactive then f else (f.spawnWave position).spawnBurst position

/-! ## Frames -/

/-- The pointer's force at distance zero; negative where it attracts. -/
def force (c : PointerConfig) : Float :=
  match c.force with
  | .repel => c.strength
  | .attract => -c.strength

def felt (f : ParticleField γ) : Option Point := if f.config.interactive then f.pointer else none

def stepParticle (c : FieldConfig) (size : Size) (pointer : Option Point) (p : Particle) : Particle :=
  let p := p.integrate
  let p := match pointer with
    | some source => p.pushFrom source c.pointer.radius (force c.pointer)
    | none => p
  ((p.reflect size).damp c.damping).fadeOut

/-- Whether a surplus particle may go: it has faded out, or strayed beyond the margin. -/
def isRetirable (size : Size) (margin : Float) (p : Particle) : Bool :=
  (p.isTransient && p.opacity ≤ 0.0) || size.isFarOutside p.position margin

def dropFirst (gone : Particle → Bool) : Nat → List Particle → List Particle
  | 0, ps => ps
  | _ + 1, [] => []
  | n + 1, p :: ps => if gone p then dropFirst gone n ps else p :: dropFirst gone (n + 1) ps

def retireSurplus (f : ParticleField γ) : ParticleField γ :=
  { f with
    particles := dropFirst (isRetirable f.size f.config.retireMargin)
      (f.particles.length - f.config.targetCount) f.particles }

def update (f : ParticleField γ) : ParticleField γ :=
  let moved := { f with particles := f.particles.map (stepParticle f.config f.size f.felt) }
  let retired := moved.retireSurplus
  { retired with waves := Wave.advanceAll retired.waves, frame := retired.frame + 1 }

/-! ## Surface changes -/

/-- Fits the field to a new surface: fresh particles, while the waves go on. -/
def resize (f : ParticleField γ) (size : Size) : ParticleField γ :=
  ({ f with size := size.clamped } : ParticleField γ).populate

def clear (f : ParticleField γ) : ParticleField γ :=
  { f with particles := [], waves := [], pointer := none }

/-! ## Memory -/

/-- The trails of new particles, one for each. -/
def reserveTrails? (c : FieldConfig) : Nat → Option Unit
  | 0 => some ()
  | n + 1 => do
    let _ ← Trail.create? c.trail.cap
    reserveTrails? c n

/-- The list of the particles, with room for those of a burst, and their trails; nothing for a
configuration that is refused. -/
def reserve? (c : FieldConfig) : Option Unit := do
  if c.validate.isOk then
    Memory.reserve? Particle.bytes (c.targetCount + c.burst.count)
    reserveTrails? c c.targetCount

def reserveClick? (c : FieldConfig) : Option Unit :=
  if c.interactive then reserveTrails? c c.burst.count else some ()

def create? (config : FieldConfig) (size : Size) (random : γ) :
    Option (Except ConfigError (ParticleField γ)) := do
  reserve? config
  return create config size random

def populate? (f : ParticleField γ) : Option (ParticleField γ) := do
  reserveTrails? f.config f.config.targetCount
  return f.populate

def resize? (f : ParticleField γ) (size : Size) : Option (ParticleField γ) := do
  reserveTrails? f.config f.config.targetCount
  return f.resize size

def spawnBurst? [Trigonometry] (f : ParticleField γ) (source : Point) : Option (ParticleField γ) := do
  reserveTrails? f.config f.config.burst.count
  return f.spawnBurst source

def click? [Trigonometry] (f : ParticleField γ) (position : Point) : Option (ParticleField γ) := do
  reserveClick? f.config
  return f.click position

end ParticleField
end AnimatedCanvas
