import AnimatedCanvas.Circuit
import AnimatedCanvas.Field.Frame

/-!
Scenes: what an animator steps and draws. A particle field and a circuit diagram are scenes, and an
`Animation` is either of them.
-/

namespace AnimatedCanvas

/-- Something that changes from frame to frame and can be drawn. -/
class Scene (α : Type) where
  step : α → α
  draw : α → List DrawCommand
  resize : Size → α → α
  clear : α → α
  pointerMove : Point → α → α
  pointerLeave : α → α
  click : Point → α → α

variable {γ : Type}

instance [Sampler γ] [Trigonometry] : Scene (ParticleField γ) where
  step f := f.update
  draw f := f.render
  resize size f := f.resize size
  clear f := f.clear
  pointerMove position f := (f.pointerMove position).2
  pointerLeave f := f.pointerLeave
  click position f := f.click position

/-- A circuit diagram takes no notice of the pointer. -/
instance [Sampler γ] : Scene (CircuitDiagram γ) where
  step d := d.advance
  draw d := d.render
  resize size d := d.resize size
  clear d := d.clear
  pointerMove _ d := d
  pointerLeave d := d
  click _ d := d

inductive Animation (γ : Type) where
  | field (field : ParticleField γ)
  | circuit (diagram : CircuitDiagram γ)

instance [Sampler γ] [Trigonometry] : Scene (Animation γ) where
  step
    | .field f => .field (Scene.step f)
    | .circuit d => .circuit (Scene.step d)
  draw
    | .field f => Scene.draw f
    | .circuit d => Scene.draw d
  resize size
    | .field f => .field (Scene.resize size f)
    | .circuit d => .circuit (Scene.resize size d)
  clear
    | .field f => .field (Scene.clear f)
    | .circuit d => .circuit (Scene.clear d)
  pointerMove position
    | .field f => .field (Scene.pointerMove position f)
    | .circuit d => .circuit (Scene.pointerMove position d)
  pointerLeave
    | .field f => .field (Scene.pointerLeave f)
    | .circuit d => .circuit (Scene.pointerLeave d)
  click position
    | .field f => .field (Scene.click position f)
    | .circuit d => .circuit (Scene.click position d)

/-! ## Memory -/

/-- What a scene reserves before it changes. -/
class Scene.Reserving (α : Type) where
  resize? : α → Option Unit
  click? : α → Option Unit

instance : Scene.Reserving (ParticleField γ) where
  resize? f := ParticleField.reserveTrails? f.config f.config.targetCount
  click? f := ParticleField.reserveClick? f.config

instance : Scene.Reserving (CircuitDiagram γ) where
  resize? d := GateEvent.reserve? d.config
  click? _ := some ()

instance : Scene.Reserving (Animation γ) where
  resize?
    | .field f => Scene.Reserving.resize? f
    | .circuit d => Scene.Reserving.resize? d
  click?
    | .field f => Scene.Reserving.click? f
    | .circuit d => Scene.Reserving.click? d

end AnimatedCanvas
