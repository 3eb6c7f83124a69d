import AnimatedCanvas.Field.Stats
import AnimatedCanvas.Proofs.Binary64.NotANumber
import AnimatedCanvas.Proofs.Field.Surface

namespace AnimatedCanvas

open Binary64

namespace Particle

structure Paced (p : Particle) : Prop where
  speedX : p.speedX.isNaN = false
  speedY : p.speedY.isNaN = false

theorem Movable.paced {p : Particle} (h : p.Movable) : p.Paced := ⟨h.speedX, h.speedY⟩

theorem isNaN_total {ps : List Particle} (paced : ∀ p ∈ ps, p.Paced) {sum : Float}
    (number : sum.isNaN = false) (nonneg : 0 ≤ value sum) :
    (ps.foldl (fun sum p => sum + p.speed) sum).isNaN = false := by
  induction ps generalizing sum with
  | nil => exact number
  | cons p ps ih =>
      obtain ⟨first, rest⟩ := List.forall_mem_cons.mp paced
      obtain ⟨real, above⟩ := isNaN_distance first.speedX first.speedY
      obtain ⟨next, le, -⟩ := le_add_of_nonneg_numbers number real nonneg above
      exact ih rest next (nonneg.trans le)

theorem isNaN_meanSpeed {ps : List Particle} (paced : ∀ p ∈ ps, p.Paced)
    (room : ps.length < 2 ^ 64) : (meanSpeed ps).isNaN = false := by
  unfold meanSpeed
  cases ps with
  | nil => rfl
  | cons p ps =>
      have one_le : 1 ≤ value (ofCount (p :: ps).length) :=
        ParticleField.one_le_value_ofCount (Nat.succ_pos ps.length) room
      obtain ⟨finite, -, -⟩ := ParticleField.value_ofCount_le (p :: ps).length
      exact isNaN_div (isNaN_total paced isNaN_zero value_zero.ge) finite (by linarith)

theorem poisoned_total {ps : List Particle} (poisoned : ∀ p ∈ ps, p.speed.isNaN = true) {sum : Float}
    (start : ps = [] → sum.isNaN = true) :
    (ps.foldl (fun sum p => sum + p.speed) sum).isNaN = true := by
  induction ps generalizing sum with
  | nil => exact start rfl
  | cons p ps ih =>
      obtain ⟨first, rest⟩ := List.forall_mem_cons.mp poisoned
      exact ih rest fun _ => poisoned_add_right sum first

theorem poisoned_meanSpeed {ps : List Particle} (some : ps ≠ [])
    (poisoned : ∀ p ∈ ps, p.speed.isNaN = true) : (meanSpeed ps).isNaN = true := by
  unfold meanSpeed
  rw [if_neg (by simpa using some)]
  exact poisoned_div_left (poisoned_total poisoned fun none => absurd none some) _

end Particle

namespace ParticleField

open Particle

/-! ## A frame -/

theorem speeds_finish (size : Size) (factor : Float) (p : Particle) :
    ((p.reflect size).damp factor).fadeOut.speedX = (bounce size.width p.x p.speedX).2 * factor ∧
      ((p.reflect size).damp factor).fadeOut.speedY = (bounce size.height p.y p.speedY).2 * factor := by
  unfold Particle.fadeOut
  split <;> exact ⟨rfl, rfl⟩

theorem isNaN_bounce_speed (extent coordinate speed : Float) :
    (bounce extent coordinate speed).2.isNaN = speed.isNaN := by
  unfold bounce
  split
  · exact isNaN_neg speed
  · rfl

theorem paced_stepParticle {c : FieldConfig} (valid : c.Valid) (size : Size) {p : Particle}
    (h : p.Paced) : (stepParticle c size none p).Paced := by
  obtain ⟨finite, positive⟩ := valid.finite_damping
  obtain ⟨speedX, speedY⟩ := speeds_finish size c.damping p.integrate
  refine ⟨(congrArg Float.isNaN speedX).trans ?_, (congrArg Float.isNaN speedY).trans ?_⟩
  · exact isNaN_mul ((isNaN_bounce_speed _ _ _).trans h.speedX) finite positive.ne'
  · exact isNaN_mul ((isNaN_bounce_speed _ _ _).trans h.speedY) finite positive.ne'

theorem poisoned_stepParticle (c : FieldConfig) (size : Size) {source : Point}
    (nowhere : source.x.isNaN = true ∨ source.y.isNaN = true) (p : Particle) :
    (stepParticle c size (some source) p).speed.isNaN = true := by
  have distance := poisoned_distance
    (nowhere.imp (poisoned_sub_right p.integrate.x) (poisoned_sub_right p.integrate.y))
  have pushed : (p.integrate.pushFrom source c.pointer.radius (force c.pointer)).speedX.isNaN = true := by
    unfold pushFrom
    dsimp only
    -- Neither test for leaving the particle alone holds of a distance that is no number.
    split
    next far =>
      rcases Bool.or_eq_true_iff.mp far with beyond | zero
      · have number := (le_iff.mp (of_decide_eq_true beyond)).2.1
        rw [distance] at number
        cases number
      · have number := (beq_iff.mp zero).1
        rw [distance] at number
        cases number
    next =>
      exact poisoned_add_right _
        (poisoned_mul_left (poisoned_mul_left (poisoned_div_right _ distance) _) _)
  obtain ⟨speedX, -⟩ := speeds_finish size c.damping
    (p.integrate.pushFrom source c.pointer.radius (force c.pointer))
  have poisoned := poisoned_mul_left ((isNaN_bounce_speed size.width
    (p.integrate.pushFrom source c.pointer.radius (force c.pointer)).x _).trans pushed) c.damping
  rw [← speedX] at poisoned
  exact poisoned_distance (.inl poisoned)

/-! ## Runs -/

structure Rolling {γ : Type} (f : ParticleField γ) (pointed : Prop) : Prop where
  valid : f.config.Valid
  clamped : IsClamped f.size
  pointer : ∀ source, f.pointer = some source → pointed ∧ source.IsFinite
  paced : ∀ p ∈ f.particles, p.Paced
  movable : pointed → ∀ p ∈ f.particles, p.Movable

/-- The pointer comes to finite places only, and if it comes at all, so do the clicks. -/
def Operation.Clean (pointed : Prop) : Operation → Prop
  | .pointerMove position => pointed ∧ position.IsFinite
  | .click position => pointed → position.IsFinite
  | _ => True

section Frames

variable {γ : Type} {f : ParticleField γ} {pointed : Prop}

theorem Rolling.update (h : f.Rolling pointed) : f.update.Rolling pointed := by
  have moved (there : pointed) : ∀ p ∈ f.update.particles, p.Movable := by
    intro p member
    obtain ⟨old, before, rfl⟩ := List.mem_map.mp (mem_of_mem_dropFirst member)
    have felt : ∀ source, f.felt = some source → source.IsFinite := by
      intro source felt
      unfold ParticleField.felt at felt
      split at felt
      · exact (h.pointer source felt).2
      · cases felt
    exact (onSurface_stepParticle h.valid h.clamped felt (h.movable there old before)).movable h.clamped
  refine ⟨h.valid, h.clamped, h.pointer, fun p member => ?_, moved⟩
  by_cases there : pointed
  · exact (moved there p member).paced
  · obtain ⟨old, before, rfl⟩ := List.mem_map.mp (mem_of_mem_dropFirst member)
    have unfelt : f.felt = none := by
      unfold ParticleField.felt
      split
      · exact Option.eq_none_iff_forall_not_mem.mpr fun source at' => there (h.pointer source at').1
      · rfl
    rw [unfelt]
    exact paced_stepParticle h.valid f.size (h.paced old before)

end Frames

section Operations

variable {σ : Type} [WordStream σ] {f : ParticleField σ} {pointed : Prop}

theorem rolling_populate (valid : f.config.Valid) (clamped : IsClamped f.size)
    (pointer : ∀ source, f.pointer = some source → pointed ∧ source.IsFinite) :
    f.populate.Rolling pointed := by
  have movable : ∀ p ∈ f.populate.particles, p.Movable :=
    Random.forall_mem_drawMany (fun g => (onSurface_restingParticle valid clamped g).movable clamped) _ _
  exact ⟨valid, clamped, pointer, fun p member => (movable p member).paced, fun _ => movable⟩

structure New (c : FieldConfig) (f : ParticleField σ) : Prop where
  config : f.config = c
  length : f.particles.length = c.targetCount
  populated : f.Populated
  rolling : ∀ pointed, f.Rolling pointed

theorem new_of_create {config : FieldConfig} (valid : config.validate = .ok ()) {size : Size}
    {random : σ} (created : create config size random = .ok f) : f.New config := by
  obtain rfl := Except.ok.inj ((create_of_valid valid size random).symm.trans created)
  have allowed := FieldConfig.validate_eq_ok.mp valid
  exact ⟨rfl, Random.length_drawMany _ _ _, populated_populate allowed (isClamped_clamped size),
    fun _ => rolling_populate allowed (isClamped_clamped size) (by simp)⟩

variable [Trigonometry]

theorem Rolling.spawnBurst (total : Trigonometry.Total) (word : f.config.burst.count < 2 ^ 64)
    (h : f.Rolling pointed) {source : Point} (finite : pointed → source.IsFinite) :
    (f.spawnBurst source).Rolling pointed := by
  have origin : Point.origin.IsFinite := ⟨rfl, rfl⟩
  have burst := forall_mem_burst (P := fun p => p.Paced ∧ (pointed → p.Movable)) h.valid source
    (fun i less _ g => ?_) f.random
  · refine ⟨h.valid, h.clamped, h.pointer, ?_, fun there => ?_⟩
    · exact List.forall_mem_append.mpr ⟨h.paced, fun p member => (burst p member).1⟩
    · exact List.forall_mem_append.mpr ⟨h.movable there, fun p member => (burst p member).2 there⟩
  · have paced := (movable_burstParticle h.valid total origin word less g).paced
    exact ⟨⟨paced.speedX, paced.speedY⟩, fun there => movable_burstParticle h.valid total (finite there) word less g⟩

theorem Rolling.operate (h : f.Rolling pointed) {operation : Operation}
    (clean : operation.Clean pointed)
    (bursts : ∀ position, operation = .click position →
      Trigonometry.Total ∧ f.config.burst.count < 2 ^ 64) :
    (f.operate operation).Rolling pointed := by
  have nowhere : ∀ source, (none : Option Point) = some source → pointed ∧ source.IsFinite := by simp
  have outcome := f.outcome_operate operation
  generalize f.operate operation = f' at outcome ⊢
  cases outcome with
  | moveIgnored | clickIgnored => exact h
  | moved position | waved position =>
      have moved : ∀ source, some position = some source → pointed ∧ source.IsFinite :=
        fun source same => Option.some.inj same ▸ clean
      exact ⟨h.valid, h.clamped, moved, h.paced, h.movable⟩
  | left => exact ⟨h.valid, h.clamped, nowhere, h.paced, h.movable⟩
  | clicked position =>
      have waved : (f.spawnWave position).Rolling pointed :=
        ⟨h.valid, h.clamped, h.pointer, h.paced, h.movable⟩
      obtain ⟨total, word⟩ := bursts position rfl
      exact Rolling.spawnBurst (f := f.spawnWave position) total word waved clean
  | updated => exact h.update
  | resized size => exact rolling_populate h.valid (isClamped_clamped size) h.pointer
  | cleared =>
      exact ⟨h.valid, h.clamped, nowhere, List.forall_mem_nil _, fun _ => List.forall_mem_nil _⟩

theorem Rolling.play (h : f.Rolling pointed) {operations : List Operation}
    (clean : ∀ operation ∈ operations, operation.Clean pointed)
    (bursts : ∀ position, .click position ∈ operations →
      Trigonometry.Total ∧ f.config.burst.count < 2 ^ 64) :
    (f.play operations).Rolling pointed := by
  induction operations generalizing f with
  | nil => exact h
  | cons operation operations ih =>
      obtain ⟨now, later⟩ := List.forall_mem_cons.mp clean
      have step := h.operate now fun position same => bursts position (same ▸ List.mem_cons_self)
      refine ih step later fun position member => ?_
      rw [f.config_operate]
      exact bursts position (List.mem_cons_of_mem _ member)

end Operations

/-! ## The number of particles -/

def Operation.isClick : Operation → Bool
  | .click _ => true
  | _ => false

section Counting

variable {γ : Type} [Sampler γ] [Trigonometry]

theorem length_operate_le (f : ParticleField γ) {operation : Operation}
    (fitted : ∀ size, operation ≠ .resize size) : (f.operate operation).particles.length ≤
      f.particles.length + if operation.isClick then f.config.burst.count else 0 := by
  cases operation with
  | pointerMove position => exact (congrArg List.length (f.pointerMove_eq position).2.2).le
  | pointerLeave => exact le_rfl
  | click position =>
      change (f.click position).particles.length ≤ f.particles.length + f.config.burst.count
      rw [f.particles_click, List.length_append, born]
      refine Nat.add_le_add_left ?_ _
      split
      · rw [Random.length_drawEach, List.length_range]
      · exact Nat.zero_le _
  | update => exact (dropFirst_sublist _ _ _).length_le.trans (List.length_map _).le
  | resize size => exact absurd rfl (fitted size)
  | clear => exact Nat.zero_le _

theorem length_play_le (f : ParticleField γ) {operations : List Operation}
    (fitted : ∀ size, .resize size ∉ operations) : (f.play operations).particles.length ≤
      f.particles.length + operations.countP Operation.isClick * f.config.burst.count := by
  induction operations generalizing f with
  | nil => simp [play]
  | cons operation operations ih =>
      have here (size : Size) : operation ≠ .resize size :=
        fun same => fitted size (same ▸ List.mem_cons_self)
      have first := f.length_operate_le here
      have rest := ih (f.operate operation) fun size member =>
        fitted size (List.mem_cons_of_mem _ member)
      rw [f.config_operate] at rest
      refine rest.trans ((Nat.add_le_add_right first _).trans ?_)
      rw [List.countP_cons]
      split <;> simp [Nat.add_mul]
      omega

end Counting

theorem isNaN_meanSpeed_play {σ : Type} [WordStream σ] [Trigonometry] {f : ParticleField σ}
    {pointed : Prop} (h : f.Rolling pointed) {operations : List Operation}
    (clean : ∀ operation ∈ operations, operation.Clean pointed)
    (total : ∀ position, .click position ∈ operations → Trigonometry.Total)
    (fitted : ∀ size, .resize size ∉ operations)
    (room : f.particles.length + operations.countP Operation.isClick * f.config.burst.count < 2 ^ 64) :
    (f.play operations).stats.meanSpeed.isNaN = false := by
  have bursts (position : Point) (member : .click position ∈ operations) :
      Trigonometry.Total ∧ f.config.burst.count < 2 ^ 64 := by
    have some : 0 < operations.countP Operation.isClick := List.countP_pos_iff.mpr ⟨_, member, rfl⟩
    have := Nat.le_mul_of_pos_left f.config.burst.count some
    exact ⟨total position member, by omega⟩
  exact isNaN_meanSpeed (h.play clean bursts).paced ((f.length_play_le fitted).trans_lt room)

/-! ## A pointer without a place -/

section Poison

variable {γ : Type} [Sampler γ] [Trigonometry] {f : ParticleField γ}

theorem pointer_operate {operation : Operation}
    (quiet : operation.isClick = true ∨ operation = .update) :
    (f.operate operation).pointer = f.pointer := by
  have outcome := f.outcome_operate operation
  generalize f.operate operation = f' at outcome ⊢
  cases outcome with
  | clickIgnored | clicked | updated => rfl
  | _ => simp [Operation.isClick] at quiet

theorem pointer_play {operations : List Operation}
    (quiet : ∀ operation ∈ operations, operation.isClick = true ∨ operation = .update) :
    (f.play operations).pointer = f.pointer := by
  induction operations generalizing f with
  | nil => rfl
  | cons operation operations ih =>
      obtain ⟨now, later⟩ := List.forall_mem_cons.mp quiet
      exact (ih later).trans (pointer_operate now)

omit [Sampler γ] [Trigonometry] in
theorem poisoned_meanSpeed_update (h : f.Populated) (some : 0 < f.config.targetCount)
    (interactive : f.config.interactive = true) {source : Point}
    (pointer : f.pointer = Option.some source)
    (nowhere : source.x.isNaN = true ∨ source.y.isNaN = true) :
    f.update.stats.meanSpeed.isNaN = true := by
  have felt : f.felt = Option.some source := by rw [ParticleField.felt, if_pos interactive, pointer]
  apply poisoned_meanSpeed
  · intro none
    have resting := h.update.resting
    rw [none] at resting
    exact some.ne resting
  · intro p member
    obtain ⟨old, -, rfl⟩ := List.mem_map.mp (mem_of_mem_dropFirst member)
    rw [felt]
    exact poisoned_stepParticle f.config f.size nowhere old

theorem poisoned_meanSpeed_play (h : f.Populated) (some : 0 < f.config.targetCount)
    (interactive : f.config.interactive = true) {source : Point}
    (nowhere : source.x.isNaN = true ∨ source.y.isNaN = true) {operations : List Operation}
    (quiet : ∀ operation ∈ operations, operation.isClick = true ∨ operation = .update) :
    (f.play (.pointerMove source :: operations ++ [.update])).stats.meanSpeed.isNaN = true := by
  have kept : .clear ∉ .pointerMove source :: operations := by
    rintro (_ | ⟨_, member⟩)
    rcases quiet _ member with click | update
    · cases click
    · cases update
  have same := f.config_play (.pointerMove source :: operations)
  have pointer : (f.play (.pointerMove source :: operations)).pointer = Option.some source := by
    refine (pointer_play quiet).trans ?_
    simp only [operate, pointerMove, interactive, Bool.not_true, Bool.false_eq_true, if_false]
    split <;> rfl
  have last : f.play (.pointerMove source :: operations ++ [.update]) =
      (f.play (.pointerMove source :: operations)).update := List.foldl_append
  rw [last]
  exact poisoned_meanSpeed_update (h.play kept) (same ▸ some) (same ▸ interactive) pointer nowhere

end Poison

end ParticleField
end AnimatedCanvas
