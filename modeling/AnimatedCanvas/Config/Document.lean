import AnimatedCanvas.Config.Circuit
import AnimatedCanvas.Config.Field
import AnimatedCanvas.Document.Reading

/-!
Configurations as documents: decoding them from any `Reading`, and the values they are written as.

A record takes what is missing from its own defaults, wherever it stands. Fields that nobody knows
are passed over.
-/

namespace AnimatedCanvas

open Reading

variable {ν : Type}

/-! ## Parts -/

def Span.read? (r : Reading ν) (v : ν) : Option Span := do
  match ← r.items? v with
  | [min, max] => return { min := ← r.real? min, max := ← r.real? max }
  | _ => none

def Span.value (s : Span) : Value := .list [.real s.min, .real s.max]

def Color.ofNode? (r : Reading ν) (v : ν) : Option Color := do Color.read? (← r.text? v)

def Color.value (c : Color) : Value := .text c.hex

def Color.palette? (r : Reading ν) (v : ν) : Option (List Color) := do
  (← r.items? v).mapM (Color.ofNode? r)

def Color.paletteValue (cs : List Color) : Value := .list (cs.map Color.value)

def PointerForce.name : PointerForce → String
  | .repel => "repel"
  | .attract => "attract"

def PointerForce.read? (r : Reading ν) (v : ν) : Option PointerForce := do
  match ← r.word? v with
  | "repel" => some .repel
  | "attract" => some .attract
  | _ => none

def WaveStyle.name : WaveStyle → String
  | .ring => "ring"
  | .glow => "glow"

def WaveStyle.read? (r : Reading ν) (v : ν) : Option WaveStyle := do
  match ← r.word? v with
  | "ring" => some .ring
  | "glow" => some .glow
  | _ => none

/-! ## Backdrops -/

namespace Backdrop

inductive Member where
  | color
  | alpha
  | other
deriving DecidableEq

def member? : Value → Option Member
  | .text "color" => some .color
  | .text "alpha" => some .alpha
  | .text _ => some .other
  | .number (.natural 0) => some .color
  | .number (.natural 1) => some .alpha
  | .number (.natural _) => some .other
  | _ => none

def colorOf? : Value → Option Color
  | .text s => Color.read? s
  | _ => none

def alphaOf? : Value → Option Float
  | .number n => some n.toFloat
  | _ => none

def only? (m : Member) (fields : List (Member × Value)) : Option Value :=
  match fields.filter (·.1 == m) with
  | [(_, v)] => some v
  | _ => none

def fade? (fields : List (Value × Value)) : Option Backdrop := do
  let fields ← fields.mapM fun (k, v) => do return (← member? k, v)
  return .fade (← colorOf? (← only? .color fields)) (← alphaOf? (← only? .alpha fields))

def split? (r : Reading ν) : List (ν × ν) → Option (Option String × List (Value × Value))
  | [] => some (none, [])
  | (k, v) :: rest => do
    let key ← r.value? k
    match key with
    | .text "mode" =>
      let mode ← r.text? v
      match ← split? r rest with
      | (none, fields) => return (some mode, fields)
      | (some _, _) => none
    | key =>
      let value ← r.value? v
      let (mode, fields) ← split? r rest
      return (mode, (key, value) :: fields)

/-- A backdrop is a record with its mode among the fields, or a list that begins with the mode. -/
def read? (r : Reading ν) (v : ν) : Option Backdrop := do
  match ← r.collection? v with
  | .map entries =>
    match ← split? r entries with
    | (some "clear", _) => some .clear
    | (some "fade", fields) => fade? fields
    | _ => none
  | .list [] => none
  | .list (mode :: fields) =>
    let fields ← fields.mapM r.value?
    match ← r.text? mode, fields with
    | "clear", [] => some .clear
    | "fade", [color, alpha] => return .fade (← colorOf? color) (← alphaOf? alpha)
    | _, _ => none

def value : Backdrop → Value
  | .clear => .record [("mode", .text "clear")]
  | .fade color alpha =>
    .record [("mode", .text "fade"), ("color", color.value), ("alpha", .real alpha)]

end Backdrop

/-! ## Records -/

namespace TrailConfig

def names : List String := ["cap", "opacity", "scale"]

def read? (r : Reading ν) (v : ν) : Option TrailConfig := do
  let f ← r.record? names v
  let d : TrailConfig := {}
  return {
    cap := ← field f "cap" r.count? d.cap
    opacity := ← field f "opacity" r.real? d.opacity
    scale := ← field f "scale" r.real? d.scale }

def value (c : TrailConfig) : Value :=
  .record [("cap", .count c.cap), ("opacity", .real c.opacity), ("scale", .real c.scale)]

end TrailConfig

namespace PointerConfig

def names : List String := ["force", "radius", "strength"]

def read? (r : Reading ν) (v : ν) : Option PointerConfig := do
  let f ← r.record? names v
  let d : PointerConfig := {}
  return {
    force := ← field f "force" (PointerForce.read? r) d.force
    radius := ← field f "radius" r.real? d.radius
    strength := ← field f "strength" r.real? d.strength }

def value (c : PointerConfig) : Value :=
  .record
    [("force", .text c.force.name), ("radius", .real c.radius), ("strength", .real c.strength)]

end PointerConfig

namespace BurstConfig

def names : List String := ["count", "speed", "radius", "opacity", "fade"]

def read? (r : Reading ν) (v : ν) : Option BurstConfig := do
  let f ← r.record? names v
  let d : BurstConfig := {}
  return {
    count := ← field f "count" r.count? d.count
    speed := ← field f "speed" (Span.read? r) d.speed
    radius := ← field f "radius" (Span.read? r) d.radius
    opacity := ← field f "opacity" (Span.read? r) d.opacity
    fade := ← field f "fade" r.real? d.fade }

def value (c : BurstConfig) : Value :=
  .record
    [("count", .count c.count), ("speed", c.speed.value), ("radius", c.radius.value),
      ("opacity", c.opacity.value), ("fade", .real c.fade)]

end BurstConfig

namespace WaveConfig

def names : List String :=
  ["chance", "max_radius", "speed", "opacity", "fade", "style", "palette", "line_width"]

def read? (r : Reading ν) (v : ν) : Option WaveConfig := do
  let f ← r.record? names v
  let d : WaveConfig := {}
  return {
    chance := ← field f "chance" r.real? d.chance
    maxRadius := ← field f "max_radius" (Span.read? r) d.maxRadius
    speed := ← field f "speed" (Span.read? r) d.speed
    opacity := ← field f "opacity" r.real? d.opacity
    fade := ← field f "fade" r.real? d.fade
    style := ← field f "style" (WaveStyle.read? r) d.style
    palette := ← field f "palette" (Color.palette? r) d.palette
    lineWidth := ← field f "line_width" r.real? d.lineWidth }

def value (c : WaveConfig) : Value :=
  .record
    [("chance", .real c.chance), ("max_radius", c.maxRadius.value), ("speed", c.speed.value),
      ("opacity", .real c.opacity), ("fade", .real c.fade), ("style", .text c.style.name),
      ("palette", Color.paletteValue c.palette), ("line_width", .real c.lineWidth)]

end WaveConfig

namespace LinkConfig

def names : List String := ["distance", "opacity", "color", "width"]

def read? (r : Reading ν) (v : ν) : Option LinkConfig := do
  let f ← r.record? names v
  let d : LinkConfig := {}
  return {
    distance := ← field f "distance" r.real? d.distance
    opacity := ← field f "opacity" r.real? d.opacity
    color := ← field f "color" (Color.ofNode? r) d.color
    width := ← field f "width" r.real? d.width }

def value (c : LinkConfig) : Value :=
  .record
    [("distance", .real c.distance), ("opacity", .real c.opacity), ("color", c.color.value),
      ("width", .real c.width)]

end LinkConfig

namespace FieldConfig

def names : List String :=
  ["target_count", "palette", "radius", "speed", "opacity", "damping", "retire_margin",
    "interactive", "glow_scale", "solid_core", "backdrop", "trail", "pointer", "burst", "waves",
    "links"]

def read? (r : Reading ν) (v : ν) : Option FieldConfig := do
  let f ← r.record? names v
  let d : FieldConfig := {}
  return {
    targetCount := ← field f "target_count" r.count? d.targetCount
    palette := ← field f "palette" (Color.palette? r) d.palette
    radius := ← field f "radius" (Span.read? r) d.radius
    speed := ← field f "speed" (Span.read? r) d.speed
    opacity := ← field f "opacity" (Span.read? r) d.opacity
    damping := ← field f "damping" r.real? d.damping
    retireMargin := ← field f "retire_margin" r.real? d.retireMargin
    interactive := ← field f "interactive" r.flag? d.interactive
    glowScale := ← field f "glow_scale" r.real? d.glowScale
    solidCore := ← field f "solid_core" r.flag? d.solidCore
    backdrop := ← field f "backdrop" (Backdrop.read? r) d.backdrop
    trail := ← field f "trail" (TrailConfig.read? r) d.trail
    pointer := ← field f "pointer" (PointerConfig.read? r) d.pointer
    burst := ← field f "burst" (BurstConfig.read? r) d.burst
    waves := ← field f "waves" (WaveConfig.read? r) d.waves
    links := ← field f "links" (LinkConfig.read? r) d.links }

def value (c : FieldConfig) : Value :=
  .record
    [("target_count", .count c.targetCount), ("palette", Color.paletteValue c.palette),
      ("radius", c.radius.value), ("speed", c.speed.value), ("opacity", c.opacity.value),
      ("damping", .real c.damping), ("retire_margin", .real c.retireMargin),
      ("interactive", .flag c.interactive), ("glow_scale", .real c.glowScale),
      ("solid_core", .flag c.solidCore), ("backdrop", c.backdrop.value), ("trail", c.trail.value),
      ("pointer", c.pointer.value), ("burst", c.burst.value), ("waves", c.waves.value),
      ("links", c.links.value)]

end FieldConfig

namespace CircuitConfig

def names : List String :=
  ["tracks", "gate_count", "dual_chance", "time_step", "tail", "sweep_rate", "padding"]

def read? (r : Reading ν) (v : ν) : Option CircuitConfig := do
  let f ← r.record? names v
  let d : CircuitConfig := {}
  return {
    tracks := ← field f "tracks" r.count? d.tracks
    gateCount := ← field f "gate_count" r.count? d.gateCount
    dualChance := ← field f "dual_chance" r.real? d.dualChance
    timeStep := ← field f "time_step" (Span.read? r) d.timeStep
    tail := ← field f "tail" r.real? d.tail
    sweepRate := ← field f "sweep_rate" r.real? d.sweepRate
    padding := ← field f "padding" r.real? d.padding }

def value (c : CircuitConfig) : Value :=
  .record
    [("tracks", .count c.tracks), ("gate_count", .count c.gateCount),
      ("dual_chance", .real c.dualChance), ("time_step", c.timeStep.value), ("tail", .real c.tail),
      ("sweep_rate", .real c.sweepRate), ("padding", .real c.padding)]

end CircuitConfig
end AnimatedCanvas
