import AnimatedCanvas.Config.Check

/-!
Configuration of a particle field, its named presets, and what makes it usable.
-/

namespace AnimatedCanvas

inductive PointerForce where
  | repel
  | attract
deriving DecidableEq

inductive WaveStyle where
  | ring
  /-- A disc that is transparent at its rim. -/
  | glow
deriving DecidableEq

/-- What happens to the previous frame before the next is drawn. -/
inductive Backdrop where
  | clear
  /-- A thin layer of color over the whole surface, so that motion smears. -/
  | fade (color : Color) (alpha : Float)

structure TrailConfig where
  /-- Most positions kept per particle. -/
  cap : Nat := 10
  /-- Opacity of the newest dot, relative to its particle. -/
  opacity : Float := 0.5
  /-- Radius of a dot, relative to its particle. -/
  scale : Float := 0.5

structure PointerConfig where
  force : PointerForce := .repel
  radius : Float := 100.0
  /-- Change of speed per frame at distance zero. -/
  strength : Float := 0.05

structure BurstConfig where
  /-- Particles per click, on evenly spaced angles. -/
  count : Nat := 20
  speed : Span := ⟨2.0, 7.0⟩
  radius : Span := ⟨1.0, 3.0⟩
  opacity : Span := ⟨0.2, 1.0⟩
  /-- Opacity lost per frame. -/
  fade : Float := 0.01

structure WaveConfig where
  /-- Probability that a pointer move leaves a wave. -/
  chance : Float := 0.1
  maxRadius : Span := ⟨100.0, 300.0⟩
  speed : Span := ⟨2.0, 5.0⟩
  opacity : Float := 0.6
  fade : Float := 0.02
  style : WaveStyle := .ring
  palette : List Color := [.indigo]
  lineWidth : Float := 2.0

structure LinkConfig where
  distance : Float := 150.0
  /-- Opacity at distance zero, falling to nothing at `distance`. -/
  opacity : Float := 0.3
  color : Color := .indigo
  width : Float := 1.0

/-- Configuration of a particle field. The defaults are those of the `quantum` preset. -/
structure FieldConfig where
  /-- Particles at rest; bursts exceed it for a while. -/
  targetCount : Nat := 100
  palette : List Color := [.indigo, .violet, .pink, .emerald, .amber]
  radius : Span := ⟨1.0, 4.0⟩
  /-- Range of each component of the first velocity. -/
  speed : Span := .symmetric 0.25
  opacity : Span := ⟨0.2, 0.7⟩
  /-- Factor on the velocity per frame. -/
  damping : Float := 0.99
  /-- Distance beyond the edges at which surplus particles are retired. -/
  retireMargin : Float := 50.0
  interactive : Bool := true
  /-- Radius of the glow relative to the particle; zero for none. -/
  glowScale : Float := 3.0
  solidCore : Bool := true
  backdrop : Backdrop := .fade .black 0.05
  trail : TrailConfig := {}
  pointer : PointerConfig := {}
  burst : BurstConfig := {}
  waves : WaveConfig := {}
  links : LinkConfig := {}

namespace FieldConfig

/-- Colored particles that flee the pointer, thin rings, short trails. -/
def quantum : FieldConfig := {}

/-- A denser and faster field with glowing waves and white links. -/
def hero : FieldConfig where
  targetCount := 150
  palette := [.white, .indigo, .violet, .pink, .emerald, .amber]
  speed := .symmetric 0.4
  opacity := ⟨0.2, 0.8⟩
  damping := 0.98
  retireMargin := 100.0
  glowScale := 4.0
  trail := { cap := 15, opacity := 0.4, scale := 0.6 }
  pointer := { radius := 150.0, strength := 0.08 }
  burst :=
    { count := 30, speed := ⟨4.0, 12.0⟩, radius := ⟨1.0, 4.0⟩, opacity := ⟨0.1, 1.0⟩, fade := 0.008 }
  waves :=
    { chance := 0.05, maxRadius := ⟨200.0, 500.0⟩, speed := ⟨3.0, 7.0⟩, opacity := 0.8, fade := 0.015
      style := .glow, palette := [.white, .indigo, .violet] }
  links := { distance := 120.0, opacity := 0.4, color := .white, width := 1.5 }

/-- Sparse white dots with faint links that ignore the pointer. -/
def ambient : FieldConfig where
  targetCount := 50
  palette := [.white]
  damping := 1.0
  interactive := false
  glowScale := 0.0
  solidCore := false
  backdrop := .clear
  trail := { cap := 0 }
  burst := { count := 0 }
  waves := { chance := 0.0 }
  links := { distance := 100.0, opacity := 0.1, color := .white, width := 0.5 }

def presetNames : List String := ["quantum", "hero", "ambient"]

def preset (name : String) : Except ConfigError FieldConfig :=
  match String.ofList (name.toList.map Char.toLower) with
  | "quantum" => .ok quantum
  | "hero" => .ok hero
  | "ambient" => .ok ambient
  | _ => .error (.unknownPreset name)

/-- Accepts a configuration that a field can work with; the first refusal counts. -/
def validate (c : FieldConfig) : Except ConfigError Unit := do
  Check.palette "palette" c.palette
  Check.radiusSpan "radius" c.radius
  c.speed.check "speed"
  Check.opacitySpan "opacity" c.opacity
  Check.holds (c.damping > 0.0 && c.damping ≤ 1.0) "damping" "must be in (0, 1]"
  Check.atLeastZero "retire_margin" c.retireMargin
  Check.atLeastZero "glow_scale" c.glowScale
  match c.backdrop with
  | .clear => pure ()
  | .fade _ alpha => Check.unit "backdrop.alpha" alpha
  Check.unit "trail.opacity" c.trail.opacity
  Check.atLeastZero "trail.scale" c.trail.scale
  Check.atLeastZero "pointer.radius" c.pointer.radius
  Check.atLeastZero "pointer.strength" c.pointer.strength
  c.burst.speed.check "burst.speed"
  Check.radiusSpan "burst.radius" c.burst.radius
  Check.opacitySpan "burst.opacity" c.burst.opacity
  Check.unit "burst.fade" c.burst.fade
  Check.holds (!(c.burst.count > 0 && c.burst.fade ≤ 0.0)) "burst.fade"
    "burst particles must fade (fade > 0) to be retired"
  Check.unit "waves.chance" c.waves.chance
  c.waves.maxRadius.check "waves.max_radius"
  c.waves.speed.check "waves.speed"
  Check.holds (!(c.waves.speed.min ≤ 0.0)) "waves.speed" "waves must grow (speed > 0)"
  Check.unit "waves.opacity" c.waves.opacity
  Check.unit "waves.fade" c.waves.fade
  Check.palette "waves.palette" c.waves.palette
  Check.atLeastZero "waves.line_width" c.waves.lineWidth
  Check.atLeastZero "links.distance" c.links.distance
  Check.unit "links.opacity" c.links.opacity
  Check.atLeastZero "links.width" c.links.width

end FieldConfig
end AnimatedCanvas
