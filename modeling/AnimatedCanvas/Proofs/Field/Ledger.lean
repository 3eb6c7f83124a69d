import AnimatedCanvas.Proofs.Config.Field
import AnimatedCanvas.Proofs.Field.Operation
import AnimatedCanvas.Proofs.Wave
import AnimatedCanvas.Random.Generator

namespace AnimatedCanvas

open Wave (advance)

namespace ParticleField

structure Spawn where
  wave : Wave
  age : Nat

def Spawn.now (s : Spawn) : Wave := advance^[s.age] s.wave

/-- A wave is looked at in frames only, so that a new one is there in any case. -/
def Spawn.isLive (s : Spawn) : Bool := s.age == 0 || s.now.state == .growing

theorem Spawn.aged?_eq (s : Spawn) :
    s.wave.aged? s.age = if s.isLive then some s.now else none := by
  simp [Wave.aged?, isLive, now]

theorem filterMap_aged? (spawns : List Spawn) :
    spawns.filterMap (fun s => s.wave.aged? s.age) = (spawns.filter Spawn.isLive).map Spawn.now := by
  induction spawns with
  | nil => rfl
  | cons s spawns ih => cases live : s.isLive <;> simp [s.aged?_eq, live, ih]

def Operation.isUpdate : Operation → Bool
  | .update => true
  | _ => false

variable {γ : Type} [Sampler γ]

def spawned (f : ParticleField γ) : Operation → List Wave
  | .pointerMove position =>
    if (f.pointerMove position).1 then
      let (_, random) := Sampler.chance f.config.waves.chance f.random
      [(newWave f.config.waves position random).1]
    else []
  | .click position =>
    if f.config.interactive then [(newWave f.config.waves position f.random).1] else []
  | _ => []

section Runs

variable [Trigonometry]

def ledger (f : ParticleField γ) : List Operation → List Spawn
  | [] => []
  | operation :: later =>
    (f.spawned operation).map (⟨·, later.countP Operation.isUpdate⟩) ++
      (f.operate operation).ledger later

omit [Trigonometry] in
theorem forall_mem_spawned {f : ParticleField γ} {P : Wave → Prop}
    (new : ∀ (center : Point) (g : γ), P (newWave f.config.waves center g).1) (operation : Operation) :
    ∀ w ∈ f.spawned operation, P w := by
  unfold spawned
  split
  · split
    · exact List.forall_mem_singleton.mpr (new _ _)
    · exact List.forall_mem_nil _
  · split
    · exact List.forall_mem_singleton.mpr (new _ _)
    · exact List.forall_mem_nil _
  · exact List.forall_mem_nil _

omit [Trigonometry] in
theorem moving_of_mem_spawned {f : ParticleField γ} {operation : Operation} :
    ∀ w ∈ f.spawned operation, w.Moving :=
  forall_mem_spawned (fun _ _ => Wave.moving_start ..) operation

theorem waves_operate {f : ParticleField γ} {operation : Operation} (still : operation ≠ .update)
    (kept : operation ≠ .clear) :
    (f.operate operation).waves = f.waves ++ f.spawned operation := by
  cases operation with
  | pointerMove position =>
      simp only [operate, spawned, pointerMove]
      cases f.config.interactive with
      | false => simp
      | true =>
          obtain ⟨leavesWave, random⟩ := Sampler.chance f.config.waves.chance f.random
          cases leavesWave <;> simp [spawnWave]
  | click position =>
      simp only [operate, spawned, click]
      cases f.config.interactive <;> simp [spawnWave, spawnBurst]
  | pointerLeave => exact (List.append_nil _).symm
  | resize size => exact (List.append_nil _).symm
  | update => exact absurd rfl still
  | clear => exact absurd rfl kept

theorem moving_operate {f : ParticleField γ} (moving : ∀ w ∈ f.waves, w.Moving)
    {operation : Operation} (kept : operation ≠ .clear) :
    ∀ w ∈ (f.operate operation).waves, w.Moving := by
  by_cases frame : operation = .update
  · subst frame
    intro w member
    obtain ⟨old, there, rfl⟩ := List.mem_map.mp (List.mem_filter.mp member).1
    exact (moving old there).advance
  · rw [waves_operate frame kept]
    exact List.forall_mem_append.mpr ⟨moving, moving_of_mem_spawned⟩

theorem filterMap_operate {f : ParticleField γ} (moving : ∀ w ∈ f.waves, w.Moving)
    {operation : Operation} (kept : operation ≠ .clear) (later : List Operation) :
    (f.operate operation).waves.filterMap (Wave.aged? (later.countP Operation.isUpdate)) =
      f.waves.filterMap (Wave.aged? ((operation :: later).countP Operation.isUpdate)) ++
        (f.spawned operation).filterMap (Wave.aged? (later.countP Operation.isUpdate)) := by
  by_cases frame : operation = .update
  · subst frame
    have moved : (f.operate .update).waves = f.waves.filterMap (Wave.aged? 1) :=
      Wave.advanceAll_eq f.waves
    rw [moved, List.filterMap_filterMap, List.countP_cons_of_pos rfl]
    simp only [spawned, List.filterMap_nil, List.append_nil]
    exact List.filterMap_congr fun w member => ((moving w member).aged?_succ _).symm
  · have still : operation.isUpdate = false := by
      cases operation with
      | update => exact absurd rfl frame
      | _ => rfl
    rw [waves_operate frame kept, List.filterMap_append, List.countP_cons_of_neg (by simp [still])]

theorem waves_play {f : ParticleField γ} (moving : ∀ w ∈ f.waves, w.Moving)
    {operations : List Operation} (kept : .clear ∉ operations) :
    (f.play operations).waves =
      f.waves.filterMap (Wave.aged? (operations.countP Operation.isUpdate)) ++
        (f.ledger operations).filterMap fun s => s.wave.aged? s.age := by
  -- On the operations, each of which leaves waves whose age is the number of the frames to come.
  induction operations generalizing f with
  | nil => simp [play, ledger, funext Wave.aged?_zero]
  | cons operation later ih =>
      obtain ⟨now, keptLater⟩ := not_or.mp (mt List.mem_cons.mpr kept)
      have spawns : ((f.spawned operation).map (Spawn.mk · (later.countP Operation.isUpdate))).filterMap
          (fun s => s.wave.aged? s.age) =
          (f.spawned operation).filterMap (Wave.aged? (later.countP Operation.isUpdate)) := by
        rw [List.filterMap_map]
        rfl
      calc
        (f.play (operation :: later)).waves = ((f.operate operation).play later).waves := rfl
        _ = _ := ih (moving_operate moving (Ne.symm now)) keptLater
        _ = _ := by
          rw [filterMap_operate moving (Ne.symm now), ledger, List.filterMap_append, spawns,
            List.append_assoc]

/-- The waves of a field are those that were left behind and that, moved on by every frame since, have
not expired; operations other than frames leave waves as they are. -/
theorem waves_ledger (config : FieldConfig) (size : Size) (random : γ) (operations : List Operation)
    (valid : config.validate = .ok ()) (kept : .clear ∉ operations) :
    ∃ start, create config size random = .ok start ∧
      let f := start.play operations
      f.waves = ((start.ledger operations).filter Spawn.isLive).map Spawn.now ∧
      ∀ operation, operation ≠ .update → operation ≠ .clear →
        (f.operate operation).waves = f.waves ++ f.spawned operation := by
  refine ⟨_, create_of_valid valid size random, ?_, fun _ still alive => waves_operate still alive⟩
  rw [waves_play (List.forall_mem_nil _) kept]
  exact filterMap_aged? _

end Runs

theorem waves_ledger_quantum :
    let operations : List Operation :=
      [.click ⟨10.0, 20.0⟩, .update, .pointerMove ⟨0.0 / 0.0, 5.0⟩, .resize ⟨80.0, 60.0⟩, .update]
    FieldConfig.quantum.validate = .ok () ∧ .clear ∉ operations ∧
      ∃ start, create .quantum ⟨400.0, 300.0⟩ (⟨1, 2, 3, 4⟩ : Generator) = .ok start ∧
        (start.play operations).waves =
          ((start.ledger operations).filter Spawn.isLive).map Spawn.now := by
  intro operations
  have valid : FieldConfig.quantum.validate = .ok () := rfl
  have kept : .clear ∉ operations := by simp [operations]
  obtain ⟨start, created, waves, -⟩ := waves_ledger .quantum ⟨400.0, 300.0⟩
    (⟨1, 2, 3, 4⟩ : Generator) operations valid kept
  exact ⟨valid, kept, start, created, waves⟩

end ParticleField
end AnimatedCanvas
