import AnimatedCanvas.Proofs.Config.Field
import AnimatedCanvas.Proofs.Field.Edges
import AnimatedCanvas.Proofs.Field.Operation
import AnimatedCanvas.Proofs.Field.Retirement
import AnimatedCanvas.Proofs.Random
import AnimatedCanvas.Random.Generator

namespace AnimatedCanvas.ParticleField

open Binary64

theorem fade_stepParticle (c : FieldConfig) (size : Size) (pointer : Option Point) (p : Particle) :
    (stepParticle c size pointer p).fade = p.fade := by
  have reflect (p : Particle) : (((p.reflect size).damp c.damping).fadeOut).fade = p.fade := by
    unfold Particle.fadeOut
    split <;> rfl
  unfold stepParticle
  dsimp only
  rw [reflect]
  cases pointer with
  | none => rfl
  | some source =>
      simp only [Particle.pushFrom]
      split <;> rfl

theorem isOutside_stepParticle {size : Size} (clamped : Particle.IsClamped size) (c : FieldConfig)
    (pointer : Option Point) (p : Particle) :
    (stepParticle c size pointer p).isOutside size = false := by
  have faded (p : Particle) : p.fadeOut.isOutside size = p.isOutside size := by
    unfold Particle.fadeOut
    split <;> rfl
  unfold stepParticle
  dsimp only
  rw [faded]
  exact Particle.isOutside_reflect clamped _

def isFaded (p : Particle) : Bool := p.isTransient && p.opacity ≤ 0.0

theorem isRetirable_stepParticle {c : FieldConfig} (valid : c.Valid) {size : Size}
    (clamped : Particle.IsClamped size) (pointer : Option Point) (p : Particle) :
    isRetirable size c.retireMargin (stepParticle c size pointer p) =
      isFaded (stepParticle c size pointer p) := by
  -- The edges have turned the particle around, so that it is not retired for where it is.
  have near := isFarOutside_eq_false clamped valid.retireMargin.1 valid.retireMargin.2
    (isOutside_stepParticle clamped c pointer p)
  rw [isRetirable, near, Bool.or_false, isFaded]

def OfKind (p : Particle) : Prop := p.fade = 0.0 ∨ p.isTransient = true

theorem isTransient_eq {p : Particle} (h : OfKind p) : p.isTransient = !(p.fade == 0.0) := by
  rcases h with rest | transient
  · rw [Particle.isTransient, rest]
    rfl
  · have positive : 0.0 < p.fade := by simpa [Particle.isTransient] using transient
    have different : ¬ (p.fade == 0.0) = true := by
      intro same
      have less := (lt_iff.mp positive).2.2
      rw [(beq_iff.mp same).2.2] at less
      exact lt_irrefl _ less
    rw [transient, Bool.eq_false_iff.mpr different]
    rfl

variable {γ : Type} {f : ParticleField γ}

structure Populated (f : ParticleField γ) : Prop where
  valid : f.config.Valid
  clamped : Particle.IsClamped f.size
  kinds : ∀ p ∈ f.particles, OfKind p
  resting : f.particles.countP (·.fade == 0.0) = f.config.targetCount

theorem countP_isTransient {ps : List Particle} (kinds : ∀ p ∈ ps, OfKind p) :
    ps.length = ps.countP (·.fade == 0.0) + ps.countP Particle.isTransient := by
  rw [List.length_eq_countP_add_countP (·.fade == 0.0)]
  congr 1
  apply List.countP_congr
  intro p member
  rw [isTransient_eq (kinds p member)]
  simp

theorem Populated.length (h : f.Populated) :
    f.particles.length = f.config.targetCount + f.particles.countP Particle.isTransient := by
  rw [countP_isTransient h.kinds, h.resting]

theorem Populated.particles_update (h : f.Populated) :
    f.update.particles =
      (f.particles.map (stepParticle f.config f.size f.felt)).filter (! isFaded ·) := by
  let moved := f.particles.map (stepParticle f.config f.size f.felt)
  have retirable : ∀ p ∈ moved, isRetirable f.size f.config.retireMargin p = isFaded p := by
    intro p member
    obtain ⟨old, -, rfl⟩ := List.mem_map.mp member
    exact isRetirable_stepParticle h.valid h.clamped f.felt old
  have surplus : moved.length - f.config.targetCount = f.particles.countP Particle.isTransient := by
    rw [List.length_map, h.length]
    omega
  have enough : moved.countP (isRetirable f.size f.config.retireMargin) ≤
      moved.length - f.config.targetCount := by
    rw [surplus, List.countP_map]
    apply List.countP_mono_left
    intro p member gone
    have faded : isFaded (stepParticle f.config f.size f.felt p) = true :=
      (isRetirable_stepParticle h.valid h.clamped f.felt p).symm.trans gone
    have transient := (Bool.and_eq_true_iff.mp faded).1
    rwa [Particle.isTransient, fade_stepParticle] at transient
  change dropFirst _ _ moved = _
  rw [dropFirst_eq_filter enough]
  apply List.filter_congr
  intro p member
  rw [retirable p member]

theorem Populated.update (h : f.Populated) : f.update.Populated := by
  have kinds : ∀ p ∈ f.particles.map (stepParticle f.config f.size f.felt), OfKind p := by
    intro p member
    obtain ⟨old, there, rfl⟩ := List.mem_map.mp member
    rw [OfKind, Particle.isTransient, fade_stepParticle]
    exact h.kinds old there
  constructor
  · exact h.valid
  · exact h.clamped
  · intro p member
    rw [h.particles_update] at member
    exact kinds p (List.mem_filter.mp member).1
  · rw [h.particles_update, List.countP_filter]
    -- Only particles of bursts fade, so that all of those at rest stay.
    have stays : (f.particles.map (stepParticle f.config f.size f.felt)).countP
        (fun p => p.fade == 0.0 && !isFaded p) =
        (f.particles.map (stepParticle f.config f.size f.felt)).countP (·.fade == 0.0) := by
      apply List.countP_congr
      intro p member
      cases rest : p.fade == 0.0 <;>
        simp [isFaded, isTransient_eq (kinds p member), rest]
    rw [stays, List.countP_map]
    simp only [Function.comp_def, fade_stepParticle]
    exact h.resting

variable [Sampler γ]

theorem fade_restingParticle (c : FieldConfig) (size : Size) (g : γ) :
    (restingParticle c size g).1.fade = 0.0 := rfl

theorem fade_populate (f : ParticleField γ) : ∀ p ∈ f.populate.particles, p.fade = 0.0 :=
  Random.forall_mem_drawMany (fade_restingParticle f.config f.size) f.config.targetCount f.random

theorem populated_populate (valid : f.config.Valid) (clamped : Particle.IsClamped f.size) :
    f.populate.Populated where
  valid := valid
  clamped := clamped
  kinds := fun p member => .inl (f.fade_populate p member)
  resting := by
    have all : ∀ p ∈ f.populate.particles, (p.fade == 0.0) = true := by
      intro p member
      rw [f.fade_populate p member]
      rfl
    rw [List.countP_eq_length.mpr all]
    exact Random.length_drawMany _ _ _

section Runs

variable [Trigonometry]

theorem forall_mem_burst {P : Particle → Prop} {c : FieldConfig} (valid : c.Valid)
    (source : Point)
    (h : ∀ i < c.burst.count, 0.0 < c.burst.fade → ∀ g : γ, P (burstParticle c source i g).1) (g : γ) :
    ∀ p ∈ (Random.drawEach (burstParticle c source) (List.range c.burst.count) g).1, P p := by
  apply Random.forall_mem_drawEach
  intro i member
  have less := List.mem_range.mp member
  obtain ⟨-, number, nonneg⟩ := le_iff.mp valid.burstFade.1
  refine h i less (lt_iff.mpr ⟨isNaN_zero, number, ?_⟩)
  by_contra notPositive
  exact valid.burstFades ((Nat.zero_le i).trans_lt less)
    (le_iff.mpr ⟨number, isNaN_zero, not_lt.mp notPositive⟩)

theorem Populated.spawnBurst (h : f.Populated) (source : Point) : (f.spawnBurst source).Populated := by
  have transient : ∀ p ∈ (Random.drawEach (burstParticle f.config source)
      (List.range f.config.burst.count) f.random).1, p.isTransient = true :=
    forall_mem_burst h.valid source
      (fun i _ positive g => by simpa [burstParticle, Particle.isTransient] using positive) f.random
  constructor
  · exact h.valid
  · exact h.clamped
  · intro p member
    rcases List.mem_append.mp member with old | new
    · exact h.kinds p old
    · exact .inr (transient p new)
  · change (f.particles ++ _).countP _ = _
    rw [List.countP_append, h.resting]
    apply Nat.add_eq_left.mpr
    apply List.countP_eq_zero.mpr
    intro p member rest
    have kind := isTransient_eq (.inr (transient p member))
    rw [transient p member, rest] at kind
    cases kind

theorem Populated.operate (h : f.Populated) {operation : Operation} (kept : operation ≠ .clear) :
    (f.operate operation).Populated := by
  have outcome := f.outcome_operate operation
  generalize f.operate operation = f' at outcome ⊢
  cases outcome with
  | moveIgnored | clickIgnored => exact h
  | moved | waved | left => exact ⟨h.valid, h.clamped, h.kinds, h.resting⟩
  | clicked position =>
      have waved : (f.spawnWave position).Populated := ⟨h.valid, h.clamped, h.kinds, h.resting⟩
      exact waved.spawnBurst position
  | updated => exact h.update
  | resized size => exact populated_populate h.valid (Particle.isClamped_clamped size)
  | cleared => exact absurd rfl kept

theorem Populated.play (h : f.Populated) {operations : List Operation}
    (kept : .clear ∉ operations) : (f.play operations).Populated := by
  induction operations generalizing f with
  | nil => exact h
  | cons operation operations ih =>
      obtain ⟨now, later⟩ := not_or.mp (mt List.mem_cons.mpr kept)
      exact ih (h.operate (Ne.symm now)) later

/-- As long as a field is not cleared, the particles at rest are as many as wanted, all others come
from bursts, and each frame retires exactly those that come from bursts and have faded out. -/
theorem population_law (config : FieldConfig) (size : Size) (random : γ)
    (operations : List Operation) (valid : config.validate = .ok ()) (kept : .clear ∉ operations) :
    ∃ start, create config size random = .ok start ∧
      let f := start.play operations
      f.particles.countP (·.fade == 0.0) = config.targetCount ∧
      f.particles.length = config.targetCount + f.particles.countP Particle.isTransient ∧
      f.update.particles = (f.particles.map (stepParticle config f.size f.felt)).filter
        (fun p => !(p.isTransient && p.opacity ≤ 0.0)) := by
  let start : ParticleField γ := populate
    { config, size := size.clamped, particles := [], waves := [], pointer := none, random, frame := 0 }
  have created : create config size random = .ok start := create_of_valid valid size random
  have populated : start.Populated :=
    populated_populate (FieldConfig.validate_eq_ok.mp valid) (Particle.isClamped_clamped size)
  have reached := populated.play kept
  have same : (start.play operations).config = config := start.config_play operations
  refine ⟨start, created, ?_, ?_, ?_⟩
  · rw [reached.resting, same]
  · rw [reached.length, same]
  · rw [reached.particles_update, same]
    rfl

end Runs

theorem population_law_quantum :
    let operations : List Operation :=
      [.click ⟨-5.0, 0.0 / 0.0⟩, .update, .resize ⟨80.0, 60.0⟩, .click ⟨10.0, 20.0⟩, .update]
    FieldConfig.quantum.validate = .ok () ∧
      ∃ start, create .quantum ⟨400.0, 300.0⟩ (⟨1, 2, 3, 4⟩ : Generator) = .ok start ∧
        let f := start.play operations
        f.particles.countP (·.fade == 0.0) = 100 ∧
        f.particles.length = 100 + f.particles.countP Particle.isTransient := by
  intro operations
  have valid : FieldConfig.quantum.validate = .ok () := rfl
  obtain ⟨start, created, resting, length, -⟩ := population_law .quantum ⟨400.0, 300.0⟩
    (⟨1, 2, 3, 4⟩ : Generator) operations valid (by simp [operations])
  exact ⟨valid, start, created, resting, length⟩

end AnimatedCanvas.ParticleField
