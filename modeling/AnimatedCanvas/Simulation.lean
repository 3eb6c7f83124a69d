import AnimatedCanvas.Config.Load
import AnimatedCanvas.Field.Stats
import AnimatedCanvas.Stage

/-!
Running a particle field off-screen: the field is put on a recording surface, the pointer comes, the
clicks follow, and then frame after frame is drawn. A summary tells what came of it.
-/

namespace AnimatedCanvas

variable {γ : Type} [Sampler γ] [Trigonometry]

structure Simulation (γ : Type) where
  config : FieldConfig
  size : Size
  pointer : Option Point
  clicks : List Point
  frames : Nat
  random : γ

namespace Simulation

/-- The name of the one animator, and the id of its surface. -/
def surface : String := "simulation"

def stage (s : Simulation γ) : Except CanvasError (Stage (ParticleField γ)) :=
  (Stage.empty.addSurface surface s.size).mount surface surface fun size =>
    ParticleField.create s.config size s.random

def ask (request : Stage.Request) (stage : Stage (ParticleField γ)) : Stage (ParticleField γ) :=
  match stage.performer? surface with
  | some p => stage.perform p request
  | none => stage

def pointed (s : Simulation γ) (stage : Stage (ParticleField γ)) : Stage (ParticleField γ) :=
  let stage := match s.pointer with
    | some position => ask (.pointerMove position) stage
    | none => stage
  s.clicks.foldl (fun stage position => ask (.click position) stage) stage

def drawCalls (stage : Stage (ParticleField γ)) : Nat :=
  ((stage.recorder? surface).map (·.commands.length)).getD 0

def draw : Nat → Nat → Stage (ParticleField γ) → Nat × Stage (ParticleField γ)
  | 0, calls, stage => (calls, stage)
  | n + 1, _, stage =>
    let stage := Stage.run 1 stage
    draw n (drawCalls stage) (stage.modifyRecorder surface Recorder.drain)

end Simulation

structure Outcome where
  drawCalls : Nat
  stats : FieldStats

def Simulation.run (s : Simulation γ) : Except CanvasError Outcome := do
  let (drawCalls, stage) := Simulation.draw s.frames 0 (s.pointed (← s.stage))
  match stage.performer? Simulation.surface with
  | some p => return { drawCalls, stats := p.animator.scene.stats }
  | none => throw (.surfaceNotFound Simulation.surface)

/-- A simulation's field and then its clicks; no frame reserves anything. -/
def Simulation.reserve? (config : FieldConfig) (clicks : List Point) : Option Unit := do
  ParticleField.reserve? config
  clicks.forM fun _ => ParticleField.reserveClick? config

end AnimatedCanvas
