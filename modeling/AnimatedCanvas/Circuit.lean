import AnimatedCanvas.Circuit.Sequence
import AnimatedCanvas.Surface.Command

/-!
The circuit diagram: a gate sequence on horizontal tracks, with a line that sweeps over it from left
to right and starts over at the end.
-/

namespace AnimatedCanvas

/-- A circuit diagram; `γ` is its source of chance. -/
structure CircuitDiagram (γ : Type) where
  config : CircuitConfig
  size : Size
  events : List GateEvent
  sweep : Float
  random : γ

namespace CircuitDiagram

variable {γ : Type}

def withEvents (config : CircuitConfig) (size : Size) (events : List GateEvent) (random : γ) :
    CircuitDiagram γ :=
  { config, size, events := GateEvent.sort events, sweep := 0.0, random }

def create [Sampler γ] (config : CircuitConfig) (size : Size) (random : γ) :
    Except ConfigError (CircuitDiagram γ) := do
  config.validate
  let (events, random) := GateEvent.generate config.tracks config random
  return withEvents config size events random

/-- The length of the timeline: the last gate's time and the tail; none without gates. -/
def timeSpan? (d : CircuitDiagram γ) : Option Float :=
  d.events.getLast?.map fun last => last.time + d.config.tail

def regenerate [Sampler γ] (d : CircuitDiagram γ) : CircuitDiagram γ :=
  let (events, random) := GateEvent.generate d.config.tracks d.config d.random
  { d with events, random, sweep := 0.0 }

def advance (d : CircuitDiagram γ) : CircuitDiagram γ :=
  let sweep := d.sweep + d.config.sweepRate
  match d.timeSpan? with
  | some span => { d with sweep := if sweep > span then 0.0 else sweep }
  | none => { d with sweep }

/-- Fits the diagram to a new surface, with a fresh sequence. -/
def resize [Sampler γ] (d : CircuitDiagram γ) (size : Size) : CircuitDiagram γ :=
  ({ d with size } : CircuitDiagram γ).regenerate

def clear (d : CircuitDiagram γ) : CircuitDiagram γ := { d with events := [], sweep := 0.0 }

/-! ## Memory -/

/-- The gates of a first sequence; nothing for a configuration that is refused. -/
def reserve? (c : CircuitConfig) : Option Unit := do
  if c.validate.isOk then GateEvent.reserve? c

def create? [Sampler γ] (config : CircuitConfig) (size : Size) (random : γ) :
    Option (Except ConfigError (CircuitDiagram γ)) := do
  reserve? config
  return create config size random

def regenerate? [Sampler γ] (d : CircuitDiagram γ) : Option (CircuitDiagram γ) := do
  GateEvent.reserve? d.config
  return d.regenerate

def resize? [Sampler γ] (d : CircuitDiagram γ) (size : Size) : Option (CircuitDiagram γ) := do
  GateEvent.reserve? d.config
  return d.resize size

/-! ## Drawing -/

def trackY (d : CircuitDiagram γ) (track : Nat) : Float :=
  let spacing := (d.size.height - 2.0 * d.config.padding) / ofCount (max (d.config.tracks - 1) 1)
  d.config.padding + ofCount track * spacing

def timeX (d : CircuitDiagram γ) (time span : Float) : Float :=
  let span := if span > 0.0 then span else 1.0
  d.config.padding + time / span * (d.size.width - 2.0 * d.config.padding)

def placeholder (d : CircuitDiagram γ) : DrawCommand :=
  .fillText "Quantum Circuit Visualizer" ⟨d.size.width / 2.0, d.size.height / 2.0⟩
    { font := "20px sans-serif", color := Color.indigo.withAlpha 0.5, align := .center }

def trackLine (d : CircuitDiagram γ) (track : Nat) : DrawCommand :=
  let y := d.trackY track
  .line ⟨d.config.padding, y⟩ ⟨d.size.width - d.config.padding, y⟩ (Color.indigo.withAlpha 0.3) 2.0

def gateBox (kind : GateKind) (position : Point) : List DrawCommand :=
  let label : TextStyle := { font := "bold 12px monospace", color := .white, align := .center }
  [.fillGlow position 25.0 (Color.indigo.withAlpha 0.5) Color.indigo.transparent,
    .fillRect ⟨position.x - 40.0 / 2.0, position.y - 30.0 / 2.0⟩ ⟨40.0, 30.0⟩ .indigo,
    .fillText kind.label position label]

def targetMark (kind : GateKind) (position : Point) : List DrawCommand :=
  match kind with
  | .cnot =>
    [.strokeCircle position 10.0 .pink 2.0,
      .line ⟨position.x - 5.0, position.y⟩ ⟨position.x + 5.0, position.y⟩ .pink 2.0,
      .line ⟨position.x, position.y - 5.0⟩ ⟨position.x, position.y + 5.0⟩ .pink 2.0]
  | _ => [.fillCircle position 8.0 .pink]

def targetLink (kind : GateKind) (control target : Point) : List DrawCommand :=
  [.fillCircle control 6.0 .pink, .line control target (Color.pink.withAlpha 0.6) 2.0] ++
    targetMark kind target

def gateCommands (d : CircuitDiagram γ) (span : Float) (e : GateEvent) : List DrawCommand :=
  let position : Point := ⟨d.timeX e.time span, d.trackY e.track⟩
  let link := match e.target with
    | some target =>
      if e.kind.isDual then targetLink e.kind position ⟨position.x, d.trackY target⟩ else []
    | none => []
  gateBox e.kind position ++ link

def sweepLine (d : CircuitDiagram γ) (span : Float) : DrawCommand :=
  let x := d.timeX d.sweep span
  .line ⟨x, d.config.padding⟩ ⟨x, d.size.height - d.config.padding⟩ .pink 3.0

def render (d : CircuitDiagram γ) : List DrawCommand :=
  match d.timeSpan? with
  | none => [.clear, d.placeholder]
  | some span =>
    .clear ::
      ((List.range d.config.tracks).map d.trackLine ++ d.events.flatMap (d.gateCommands span) ++
        [d.sweepLine span])

end CircuitDiagram
end AnimatedCanvas
