import AnimatedCanvas.Proofs.CommandLine
import AnimatedCanvas.Proofs.Field.Ledger
import Mathlib.Logic.Function.Iterate

namespace AnimatedCanvas

namespace ParticleField

variable {γ : Type} [Sampler γ] [Trigonometry]

theorem play_clicks (f : ParticleField γ) (clicks : List Point) :
    f.play (clicks.map .click) = clicks.foldl click f := List.foldl_map

theorem play_updates (f : ParticleField γ) (n : Nat) :
    f.play (List.replicate n .update) = update^[n] f := by
  induction n generalizing f with
  | zero => rfl
  | succ n ih => exact ih f.update

theorem frame_operate (f : ParticleField γ) (operation : Operation) :
    (f.operate operation).frame = f.frame + if operation.isUpdate then 1 else 0 := by
  have outcome := f.outcome_operate operation
  generalize f.operate operation = f' at outcome ⊢
  cases outcome <;> rfl

theorem frame_play (f : ParticleField γ) (operations : List Operation) :
    (f.play operations).frame = f.frame + operations.countP Operation.isUpdate := by
  induction operations generalizing f with
  | nil => rfl
  | cons operation operations ih =>
      change ((f.operate operation).play operations).frame = _
      rw [ih, frame_operate, List.countP_cons]
      omega

omit [Trigonometry] in
theorem frame_of_create {config : FieldConfig} {size : Size} {random : γ} {start : ParticleField γ}
    (valid : config.validate = .ok ()) (created : create config size random = .ok start) :
    start.frame = 0 := by
  obtain rfl := eq_of_create valid created
  rfl

end ParticleField

namespace Simulation

open ParticleField

variable {γ : Type} [Sampler γ]

def approached (s : Simulation γ) (f : ParticleField γ) : ParticleField γ :=
  match s.pointer with
  | some position => (f.pointerMove position).2
  | none => f

theorem play_operations (s : Simulation γ) (f : ParticleField γ) :
    f.play s.operations = update^[s.frames] (s.clicks.foldl click (s.approached f)) := by
  have clicked : f.play s.pointing = s.clicks.foldl click (s.approached f) := by
    unfold pointing approached
    cases s.pointer with
    | none => exact play_clicks f s.clicks
    | some position => exact play_clicks _ s.clicks
  rw [← play_updates, ← clicked]
  exact List.foldl_append

omit [Sampler γ] in
theorem countP_isUpdate (s : Simulation γ) : s.operations.countP Operation.isUpdate = s.frames := by
  have pointed : s.pointing.countP Operation.isUpdate = 0 := by
    refine List.countP_eq_zero.mpr fun operation member => ?_
    rcases List.mem_append.mp member with moves | clicks
    · obtain ⟨position, -, rfl⟩ := Option.map_eq_some_iff.mp (Option.mem_toList.mp moves)
      nofun
    · obtain ⟨position, -, rfl⟩ := List.mem_map.mp clicks
      nofun
  rw [operations, List.countP_append, pointed, Nat.zero_add, List.countP_replicate]
  rfl

end Simulation

namespace CommandLine

open Simulation

/-- Every configuration that a command line comes by gives a summary, memory apart (`run?_eq_some_iff`),
and it is that of a field which is made from this configuration and then only moved over, clicked on and
updated: as many frames as asked for, and the commands of the last one. -/
theorem summary_plain (files : FileStore) (clock : Nat) (o : SimulateOptions) (config : FieldConfig)
    (found : fieldConfig files o = .ok config) :
    ∃ start s,
      ParticleField.create config o.size (.ofSeed (UInt64.ofNat (o.seed.getD clock)) : Generator) =
        .ok start ∧
      summary files clock o = .ok s ∧
      simulate files clock o = .ok (s.text (o.format.getD .text)) ∧
      let pointed := match o.pointer with
        | some position => (start.pointerMove position).2
        | none => start
      let f := ParticleField.update^[o.frameCount] (o.clicks.foldl ParticleField.click pointed)
      s.outcome.stats = f.stats ∧ f.stats.frame = o.frameCount ∧
        s.outcome.drawCalls = if o.frameCount = 0 then 0 else f.render.length := by
  have valid := (obtained_fieldConfig found).valid FieldConfig.Given.valid
  let simulated := simulation o config (o.seed.getD clock)
  obtain ⟨start, created, ran⟩ := simulated.run_eq_alone valid
  have counted : (start.play simulated.operations).frame = o.frameCount := by
    rw [start.frame_play, ParticleField.frame_of_create valid created, Nat.zero_add]
    exact simulated.countP_isUpdate
  rw [simulated.play_operations] at ran counted
  have reported := summary_eq found ran
  refine ⟨start, _, created, reported, ?_, rfl, counted, rfl⟩
  rw [simulate_eq, reported]
  rfl

theorem summary_plain_quantum :
    let files : FileStore := fun _ => .error "no such file"
    let o : SimulateOptions :=
      { pointer := some ⟨10.0, 20.0⟩, clicks := [⟨100.0, 100.0⟩, ⟨0.0 / 0.0, 50.0⟩], frames := some 3 }
    fieldConfig files o = .ok .quantum ∧
      ∃ start s,
        ParticleField.create .quantum o.size (.ofSeed 7 : Generator) = .ok start ∧
        summary files 7 o = .ok s ∧
        let clicked := ((start.pointerMove ⟨10.0, 20.0⟩).2.click ⟨100.0, 100.0⟩).click ⟨0.0 / 0.0, 50.0⟩
        s.outcome.stats = clicked.update.update.update.stats ∧ s.outcome.stats.frame = 3 ∧
          s.outcome.drawCalls = clicked.update.update.update.render.length := by
  intro files o
  have preset : FieldConfig.preset "quantum" = .ok .quantum := by simp [FieldConfig.preset]
  have found : fieldConfig files o = .ok .quantum := fieldConfig_of_preset files rfl rfl preset
  obtain ⟨start, s, created, reported, -, same, counted, drawn⟩ :=
    summary_plain files 7 o .quantum found
  exact ⟨found, start, s, created, reported, same, (congrArg FieldStats.frame same).trans counted, drawn⟩

end CommandLine
end AnimatedCanvas
