import AnimatedCanvas.Proofs.Binary64.Chains
import AnimatedCanvas.Proofs.Binary64.Distance
import AnimatedCanvas.Proofs.Field.Population
import AnimatedCanvas.Proofs.Span

/-!
# A field that is left alone

Opacities only fall and radii only grow, so all of them come to a halt. What has not gone by then is
kept by rounding alone: its next step is too small to make a difference (`field_settles`). Fades of at
least `2 ^ -53` are never lost in this way, and nothing is left of bursts and waves that have them; a
smaller fade can be lost from the first frame on (`faint_burst_stays`).
-/

namespace AnimatedCanvas

open Binary64 Check

theorem Check.InUnit.value {x : Float} (h : InUnit x) :
    x.isFinite = true ∧ 0 ≤ value x ∧ value x ≤ 1 := by
  obtain ⟨-, number, nonneg⟩ := le_iff.mp h.1
  have le_one := (le_iff.mp h.2).2.2
  rw [value_zero] at nonneg
  rw [value_one] at le_one
  exact ⟨isFinite_of_nonneg_of_le number nonneg rfl (le_one.trans_eq value_one.symm), nonneg, le_one⟩

theorem inUnit_of_value {x : Float} (number : x.isNaN = false) (nonneg : 0 ≤ value x)
    (le_one : value x ≤ 1) : InUnit x :=
  ⟨le_iff.mpr ⟨rfl, number, nonneg⟩, le_iff.mpr ⟨number, rfl, le_one.trans_eq value_one.symm⟩⟩

theorem inUnit_zero : InUnit 0.0 := ⟨by decide +kernel, by decide +kernel⟩

theorem inUnit_one : InUnit 1.0 := ⟨by decide +kernel, by decide +kernel⟩

theorem inUnit_clampTo {x : Float} (number : x.isNaN = false) : InUnit (clampTo 0.0 1.0 x) := by
  unfold clampTo
  split
  next => exact inUnit_zero
  next above =>
    split
    next => exact inUnit_one
    next below =>
      exact ⟨le_iff.mpr ⟨rfl, number, not_lt.mp fun less => above (lt_iff.mpr ⟨number, rfl, less⟩)⟩,
        le_iff.mpr ⟨number, rfl, not_lt.mp fun less => below (lt_iff.mpr ⟨rfl, number, less⟩)⟩⟩

theorem value_nonnegative {x : Float} (number : x.isNaN = false) :
    (nonnegative x).isNaN = false ∧ value (nonnegative x) = max 0 (value x) := by
  unfold nonnegative
  split
  next positive =>
    have := (lt_iff.mp positive).2.2
    exact ⟨number, (max_eq_right this.le).symm⟩
  next other =>
    have : value x ≤ 0 := not_lt.mp fun less => other (lt_iff.mpr ⟨rfl, number, less⟩)
    exact ⟨rfl, (max_eq_left this).symm⟩

theorem nonnegative_of_pos {x : Float} (number : x.isNaN = false) (positive : 0 < value x) :
    nonnegative x = x :=
  if_pos (lt_iff.mpr ⟨rfl, number, by rwa [value_zero]⟩)

theorem InUnit.dim {x d : Float} (hx : InUnit x) (hd : InUnit d) :
    InUnit (nonnegative (x - d)) ∧ value (nonnegative (x - d)) ≤ value x ∧
      (2 ^ (-53 : ℤ) ≤ value d → 0 < value x → value (nonnegative (x - d)) < value x) := by
  obtain ⟨finite, nonneg, le_one⟩ := hx.value
  obtain ⟨finite', nonneg', -⟩ := hd.value
  obtain ⟨number, between⟩ := between_sub finite finite'
  obtain ⟨number, same⟩ := value_nonnegative number
  have le : value (x - d) ≤ value x := (between x (isNaN_of_isFinite finite)).2 (by linarith)
  rw [same]
  refine ⟨inUnit_of_value number ?_ ?_, max_le nonneg le, fun step positive => ?_⟩
  · rw [same]
    exact le_max_left 0 _
  · rw [same]
    exact max_le zero_le_one (le.trans le_one)
  · exact max_lt positive (sub_lt_self finite finite' positive le_one step)

/-! ## Particles -/

namespace Particle

structure Fading (c : FieldConfig) (p : Particle) : Prop where
  opacity : InUnit p.opacity
  fade : p.fade = 0.0 ∨ p.fade = c.burst.fade

variable {c : FieldConfig} {p : Particle}

theorem Fading.inUnit_fade (valid : c.Valid) (h : p.Fading c) : InUnit p.fade := by
  rcases h.fade with rest | burst
  · rw [rest]
    exact inUnit_zero
  · exact burst ▸ valid.burstFade

theorem Fading.fadeOut (valid : c.Valid) (h : p.Fading c) :
    p.fadeOut.Fading c ∧ value p.fadeOut.opacity ≤ value p.opacity := by
  unfold Particle.fadeOut
  split
  · obtain ⟨opacity, le, -⟩ := InUnit.dim h.opacity (h.inUnit_fade valid)
    exact ⟨⟨opacity, h.fade⟩, le⟩
  · exact ⟨h, le_rfl⟩

theorem opacity_fadeOut (p : Particle) : p.fadeOut.opacity =
    if p.isTransient then nonnegative (p.opacity - p.fade) else p.opacity := by
  unfold Particle.fadeOut
  split <;> rfl

theorem opacity_fadeOut_congr {p q : Particle} (opacity : p.opacity = q.opacity)
    (fade : p.fade = q.fade) : p.fadeOut.opacity = q.fadeOut.opacity := by
  rw [opacity_fadeOut, opacity_fadeOut, isTransient, isTransient, opacity, fade]

end Particle

namespace ParticleField

open Particle

theorem opacity_stepParticle (c : FieldConfig) (size : Size) (pointer : Option Point)
    (p : Particle) : (stepParticle c size pointer p).opacity = p.fadeOut.opacity := by
  cases pointer with
  | none => exact opacity_fadeOut_congr rfl rfl
  | some source =>
      have pushed (p : Particle) (radius strength : Float) :
          (p.pushFrom source radius strength).opacity = p.opacity ∧
            (p.pushFrom source radius strength).fade = p.fade := by
        unfold pushFrom
        dsimp only
        split <;> exact ⟨rfl, rfl⟩
      exact opacity_fadeOut_congr (pushed p.integrate _ _).1 (pushed p.integrate _ _).2

theorem Fading.stepParticle {c : FieldConfig} (valid : c.Valid) (size : Size)
    (pointer : Option Point) {p : Particle} (h : p.Fading c) :
    (stepParticle c size pointer p).Fading c ∧
      value (ParticleField.stepParticle c size pointer p).opacity ≤ value p.opacity := by
  obtain ⟨faded, le⟩ := h.fadeOut valid
  rw [opacity_stepParticle]
  refine ⟨⟨?_, ?_⟩, le⟩
  · rw [opacity_stepParticle]
    exact faded.opacity
  · rw [fade_stepParticle]
    exact h.fade

theorem exists_settled_particle {c : FieldConfig} (valid : c.Valid) (size : Size)
    (pointer : Option Point) {p : Particle} (h : p.Fading c) :
    ∃ N, ∀ n ≥ N, let q := (stepParticle c size pointer)^[n] p
      q.Fading c ∧ value q.fadeOut.opacity = value q.opacity := by
  have fading (n : Nat) : ((stepParticle c size pointer)^[n] p).Fading c := by
    induction n with
    | zero => exact h
    | succ n ih =>
        rw [Function.iterate_succ_apply']
        exact (Fading.stepParticle valid size pointer ih).1
  have falls (n : Nat) : value ((stepParticle c size pointer)^[n + 1] p).opacity ≤
      value ((stepParticle c size pointer)^[n] p).opacity := by
    rw [Function.iterate_succ_apply']
    exact (Fading.stepParticle valid size pointer (fading n)).2
  obtain ⟨N, settled⟩ := falling_settles (fun n => (fading n).opacity.value.2.1) falls
  refine ⟨N, fun n later => ⟨fading n, ?_⟩⟩
  have same := settled n later
  rwa [Function.iterate_succ_apply', opacity_stepParticle] at same

end ParticleField

/-! ## Waves -/

namespace Wave

structure Drawn (c : WaveConfig) (w : Wave) : Prop where
  radius : w.radius.isNaN = false ∧ 0 ≤ value w.radius
  maxRadius : w.maxRadius.isNaN = false ∧ value w.maxRadius ≤ value c.maxRadius.max
  speed : w.speed.isFinite = true ∧ value c.speed.min ≤ value w.speed
  opacity : InUnit w.opacity
  fade : w.fade = c.fade

variable {c : FieldConfig} {w : Wave}

theorem Drawn.speed_pos (valid : c.Valid) (h : w.Drawn c.waves) : 0 < value w.speed := by
  have number := isNaN_of_isFinite valid.wavesSpeed.min
  refine (lt_of_not_ge fun le => ?_).trans_le h.speed.2
  exact valid.wavesGrow (le_iff.mpr ⟨number, rfl, le⟩)

theorem Drawn.advance (valid : c.Valid) (h : w.Drawn c.waves) :
    w.advance.Drawn c.waves ∧ value w.radius ≤ value w.advance.radius ∧
      value w.advance.opacity ≤ value w.opacity := by
  obtain ⟨real, same⟩ := value_nonnegative (isNaN_of_isFinite h.speed.1)
  have positive := h.speed_pos valid
  obtain ⟨number, rises, -⟩ := le_add_of_nonneg_numbers h.radius.1 real h.radius.2
    (by rw [same]; exact le_max_left 0 _)
  obtain ⟨number', same'⟩ := value_nonnegative (isNaN_of_isFinite (h.fade ▸ valid.wavesFade.value.1))
  have fade : InUnit (nonnegative w.fade) := by
    have bounds := valid.wavesFade.value
    rw [← h.fade] at bounds
    rw [max_eq_right bounds.2.1] at same'
    exact inUnit_of_value number' (same' ▸ bounds.2.1) (same' ▸ bounds.2.2)
  obtain ⟨opacity, falls, -⟩ := InUnit.dim h.opacity fade
  exact ⟨⟨⟨number, h.radius.2.trans rises⟩, h.maxRadius, h.speed, opacity, h.fade⟩, rises, falls⟩

theorem exists_settled (valid : c.Valid) (h : w.Drawn c.waves) :
    ∃ N, ∀ n ≥ N, let v := advance^[n] w
      v.Drawn c.waves ∧ value v.advance.radius = value v.radius ∧
        value v.advance.opacity = value v.opacity := by
  have drawn (n : Nat) : (advance^[n] w).Drawn c.waves := by
    induction n with
    | zero => exact h
    | succ n ih =>
        rw [Function.iterate_succ_apply']
        exact (ih.advance valid).1
  -- The radius rises and the opacity falls, both to what they can reach at all.
  obtain ⟨N, grown⟩ := rising_settles (u := fun n => (advance^[n] w).radius)
    (fun n => (drawn n).radius.2) fun n => by
      rw [Function.iterate_succ_apply']
      exact ((drawn n).advance valid).2.1
  obtain ⟨M, faded⟩ := falling_settles (u := fun n => (advance^[n] w).opacity)
    (fun n => (drawn n).opacity.value.2.1) fun n => by
      rw [Function.iterate_succ_apply']
      exact ((drawn n).advance valid).2.2
  refine ⟨max N M, fun n later => ?_⟩
  have radius := grown n (le_of_max_le_left later)
  have opacity := faded n (le_of_max_le_right later)
  rw [Function.iterate_succ_apply'] at radius opacity
  exact ⟨drawn n, radius, opacity⟩

end Wave

/-! ## Runs -/

namespace ParticleField

open Particle

structure Decaying {γ : Type} (f : ParticleField γ) : Prop where
  particles : ∀ p ∈ f.particles, p.Fading f.config
  waves : ∀ w ∈ f.waves, w.Drawn f.config.waves

section Drawing

variable {σ : Type} [WordStream σ] {c : FieldConfig}

theorem inUnit_sample {s : Span} (h : s.Drawable ∧ InUnit s.min ∧ InUnit s.max) (g : σ) :
    InUnit (s.sample g).1 := by
  obtain ⟨drawable, min, max⟩ := h
  have holds := Span.holds_sample drawable g
  exact inUnit_of_value (isNaN_of_isFinite holds.finite) (min.value.2.1.trans holds.min)
    (holds.max.trans max.value.2.2)

theorem fading_restingParticle (valid : c.Valid) (size : Size) (g : σ) :
    (restingParticle c size g).1.Fading c := by
  unfold restingParticle
  dsimp only
  exact ⟨inUnit_sample valid.opacity _, .inl rfl⟩

theorem drawn_burstParticle {γ : Type} [Sampler γ] [Trigonometry] (c : FieldConfig)
    (source : Point) (i : Nat) (g : γ) :
    let p := (burstParticle c source i g).1
    (∃ g' : γ, p.opacity = (c.burst.opacity.sample g').1) ∧
      (∃ g' : γ, p.radius = (c.burst.radius.sample g').1) ∧
      (∃ g' : γ, p.color = (Random.pick c.palette g').1) ∧
      p.fade = c.burst.fade ∧ p.trail = .empty c.trail.cap := by
  unfold burstParticle
  dsimp -iota only
  split
  next speed g _ =>
  split
  next color g' picked =>
  split
  next radius g'' sized =>
  split
  next opacity _ shown =>
  exact ⟨⟨g'', congrArg Prod.fst shown.symm⟩, ⟨g', congrArg Prod.fst sized.symm⟩,
    ⟨g, congrArg Prod.fst picked.symm⟩, rfl, rfl⟩

theorem fading_burstParticle [Trigonometry] (valid : c.Valid) (source : Point) (i : Nat) (g : σ) :
    (burstParticle c source i g).1.Fading c := by
  obtain ⟨⟨g', opacity⟩, -, -, fade, -⟩ := drawn_burstParticle c source i g
  exact ⟨opacity ▸ inUnit_sample valid.burstOpacity g', .inr fade⟩

theorem drawn_newWave (valid : c.Valid) (center : Point) (g : σ) :
    (newWave c.waves center g).1.Drawn c.waves := by
  have opacity : InUnit (clampTo 0.0 1.0 c.waves.opacity) :=
    inUnit_clampTo (isNaN_of_isFinite valid.wavesOpacity.finite)
  unfold newWave
  have maxRadius := Span.holds_sample valid.wavesMaxRadius g
  split
  next outer g same =>
  rw [same] at maxRadius
  have speed := Span.holds_sample valid.wavesSpeed g
  split
  next growth g same =>
  rw [same] at speed
  split
  exact ⟨⟨isNaN_zero, value_zero.ge⟩, ⟨isNaN_of_isFinite maxRadius.finite, maxRadius.max⟩,
    ⟨speed.finite, speed.min⟩, opacity, rfl⟩

end Drawing

section Playing

variable {γ : Type} {f : ParticleField γ}

theorem mem_advanceAll {ws : List Wave} {w : Wave} (member : w ∈ Wave.advanceAll ws) :
    w.state = .growing ∧ ∃ v ∈ ws, w = v.advance := by
  obtain ⟨there, growing⟩ := List.mem_filter.mp member
  obtain ⟨v, old, rfl⟩ := List.mem_map.mp there
  exact ⟨by simpa using growing, v, old, rfl⟩

theorem Decaying.update (populated : f.Populated) (h : f.Decaying) : f.update.Decaying where
  particles := by
    intro p member
    rw [populated.particles_update] at member
    obtain ⟨old, there, rfl⟩ := List.mem_map.mp (List.mem_filter.mp member).1
    exact (Fading.stepParticle populated.valid f.size f.felt (h.particles old there)).1
  waves := by
    intro w member
    obtain ⟨-, v, old, rfl⟩ := mem_advanceAll member
    exact ((h.waves v old).advance populated.valid).1

variable {σ : Type} [WordStream σ] {f : ParticleField σ}

theorem Decaying.spawnWave (valid : f.config.Valid) (h : f.Decaying) (center : Point) :
    (f.spawnWave center).Decaying := by
  have drawn := drawn_newWave valid center f.random
  unfold ParticleField.spawnWave
  split
  next wave random same =>
  rw [same] at drawn
  refine ⟨h.particles, fun w member => ?_⟩
  rcases List.mem_append.mp member with old | new
  · exact h.waves w old
  · obtain rfl := List.mem_singleton.mp new
    exact drawn

theorem Decaying.spawnBurst [Trigonometry] (valid : f.config.Valid) (h : f.Decaying)
    (source : Point) : (f.spawnBurst source).Decaying where
  particles := by
    change ∀ p ∈ f.particles ++ _, p.Fading f.config
    intro p member
    rcases List.mem_append.mp member with old | new
    · exact h.particles p old
    · exact forall_mem_burst valid source (fun i _ _ g => fading_burstParticle valid source i g)
        f.random p new
  waves := h.waves

theorem Decaying.operate (populated : f.Populated) (h : f.Decaying) (operation : Operation) :
    (f.operate operation).Decaying := by
  have outcome := f.outcome_operate operation
  generalize f.operate operation = f' at outcome ⊢
  cases outcome with
  | moveIgnored | clickIgnored => exact h
  | moved | left => exact ⟨h.particles, h.waves⟩
  | waved position random =>
      exact Decaying.spawnWave (f := { f with pointer := some position, random }) populated.valid
        ⟨h.particles, h.waves⟩ position
  | clicked position =>
      exact Decaying.spawnBurst (f := f.spawnWave position) populated.valid
        (h.spawnWave populated.valid position) position
  | updated => exact h.update populated
  | resized size =>
      exact ⟨Random.forall_mem_drawMany (fading_restingParticle populated.valid size.clamped) _ _,
        h.waves⟩
  | cleared => exact ⟨List.forall_mem_nil _, List.forall_mem_nil _⟩

theorem Decaying.play (populated : f.Populated) (h : f.Decaying) {operations : List Operation}
    (kept : .clear ∉ operations) : (f.play operations).Decaying := by
  induction operations generalizing f with
  | nil => exact h
  | cons operation operations ih =>
      obtain ⟨now, later⟩ := not_or.mp (mt List.mem_cons.mpr kept)
      exact ih (populated.operate (Ne.symm now)) (h.operate populated operation) later

end Playing

/-! ## Frames only -/

section Settling

variable {γ : Type} {f : ParticleField γ}

theorem Populated.iterate_update (h : f.Populated) (n : Nat) : (ParticleField.update^[n] f).Populated := by
  induction n generalizing f with
  | zero => exact h
  | succ n ih => exact ih h.update

theorem mem_iterate_update (populated : f.Populated) (n : Nat) {p : Particle}
    (member : p ∈ (ParticleField.update^[n] f).particles) :
    ∃ q ∈ f.particles, p = (stepParticle f.config f.size f.felt)^[n] q := by
  induction n generalizing f with
  | zero => exact ⟨p, member, rfl⟩
  | succ n ih =>
      obtain ⟨q, there, rfl⟩ := ih populated.update member
      rw [populated.particles_update] at there
      obtain ⟨old, first, rfl⟩ := List.mem_map.mp (List.mem_filter.mp there).1
      exact ⟨old, first, rfl⟩

theorem mem_waves_iterate_update (n : Nat) {w : Wave} (member : w ∈ (ParticleField.update^[n] f).waves) :
    ∃ v ∈ f.waves, w = Wave.advance^[n] v := by
  induction n generalizing f with
  | zero => exact ⟨w, member, rfl⟩
  | succ n ih =>
      obtain ⟨v, there, rfl⟩ := ih member
      obtain ⟨-, old, first, rfl⟩ := mem_advanceAll there
      exact ⟨old, first, rfl⟩

theorem config_iterate_update (f : ParticleField γ) (n : Nat) :
    (ParticleField.update^[n] f).config = f.config := by
  induction n generalizing f with
  | zero => rfl
  | succ n ih => exact ih f.update

theorem Decaying.settles (populated : f.Populated) (h : f.Decaying) :
    ∃ N, ∀ n ≥ N,
      (∀ p ∈ (ParticleField.update^[n] f).particles,
        p.Fading f.config ∧ value p.fadeOut.opacity = value p.opacity) ∧
      ∀ w ∈ (ParticleField.update^[n] f).waves, w.Drawn f.config.waves ∧
        value w.advance.radius = value w.radius ∧ value w.advance.opacity = value w.opacity := by
  -- Updates bring nothing new, so that there are only finitely many to wait for.
  have particles := (Filter.eventually_all_finite (List.finite_toSet f.particles)).mpr
    fun p member => Filter.eventually_atTop.mpr
      (exists_settled_particle populated.valid f.size f.felt (h.particles p member))
  have waves := (Filter.eventually_all_finite (List.finite_toSet f.waves)).mpr
    fun w member => Filter.eventually_atTop.mpr (Wave.exists_settled populated.valid (h.waves w member))
  obtain ⟨N, settled⟩ := Filter.eventually_atTop.mp (particles.and waves)
  refine ⟨N, fun n later => ⟨fun p member => ?_, fun w member => ?_⟩⟩
  · obtain ⟨q, first, rfl⟩ := mem_iterate_update populated n member
    exact (settled n later).1 q first
  · obtain ⟨v, first, rfl⟩ := mem_waves_iterate_update n member
    exact (settled n later).2 v first

theorem Populated.opacity_pos (h : f.Populated) {p : Particle} (member : p ∈ f.update.particles)
    (transient : p.isTransient = true) (number : p.opacity.isNaN = false) : 0 < value p.opacity := by
  rw [h.particles_update] at member
  have stays := (List.mem_filter.mp member).2
  have shown : ¬ p.opacity ≤ 0.0 := by simpa [isFaded, transient] using stays
  exact not_le.mp fun le => shown (le_iff.mpr ⟨number, rfl, le⟩)

theorem value_lt_of_growing {w : Wave} (growing : w.state = .growing)
    (radius : w.radius.isNaN = false) (maxRadius : w.maxRadius.isNaN = false)
    (opacity : w.opacity.isNaN = false) :
    value w.radius < value w.maxRadius ∧ 0 < value w.opacity := by
  unfold Wave.state at growing
  split at growing
  · cases growing
  next alive =>
    obtain ⟨small, shown⟩ : ¬ w.radius ≥ w.maxRadius ∧ ¬ w.opacity ≤ 0.0 := by simpa using alive
    exact ⟨not_le.mp fun le => small (le_iff.mpr ⟨maxRadius, radius, le⟩),
      not_le.mp fun le => shown (le_iff.mpr ⟨opacity, rfl, le⟩)⟩

end Settling

variable {c : FieldConfig}

/-- The fade is never lost when it is taken from an opacity. -/
def Perceptible (fade : Float) : Prop := 2 ^ (-53 : ℤ) ≤ value fade

def Outgrows (c : WaveConfig) : Prop := value c.maxRadius.max ≤ 2 ^ 51 * value c.speed.min

theorem not_perceptible_of_settled (valid : c.Valid) {p : Particle} (h : p.Fading c)
    (transient : p.isTransient = true) (shown : 0 < value p.opacity)
    (settled : value p.fadeOut.opacity = value p.opacity) : ¬ Perceptible c.burst.fade := by
  intro perceptible
  have burst : p.fade = c.burst.fade := by
    refine h.fade.resolve_left fun rest => ?_
    rw [isTransient, rest] at transient
    exact absurd transient (by decide +kernel)
  rw [opacity_fadeOut, if_pos transient] at settled
  obtain ⟨-, -, falls⟩ := InUnit.dim h.opacity (h.inUnit_fade valid)
  exact (falls (burst ▸ perceptible) shown).ne settled

theorem not_outgrows_of_settled (valid : c.Valid) {w : Wave} (h : w.Drawn c.waves)
    (small : value w.radius < value w.maxRadius)
    (settled : value w.advance.radius = value w.radius) : ¬ Outgrows c.waves := by
  intro outgrows
  have positive := h.speed_pos valid
  have grows : nonnegative w.speed = w.speed :=
    nonnegative_of_pos (isNaN_of_isFinite h.speed.1) positive
  have finite : w.radius.isFinite = true := isFinite_iff.mpr
    ⟨h.radius.1, (neg_lt_zero.mpr limit_pos).trans_le h.radius.2, small.trans_le (value_le_limit _)⟩
  have few : value w.radius ≤ 2 ^ 51 * value w.speed := by
    have := h.maxRadius.2
    have := h.speed.2
    have : value c.waves.maxRadius.max ≤ 2 ^ 51 * value c.waves.speed.min := outgrows
    linarith
  have less := self_lt_add finite h.speed.1 h.radius.2 positive few
  rw [← grows] at less
  exact less.ne' settled

theorem not_perceptible_of_settled_wave (valid : c.Valid) {w : Wave} (h : w.Drawn c.waves)
    (shown : 0 < value w.opacity) (settled : value w.advance.opacity = value w.opacity) :
    ¬ Perceptible c.waves.fade := by
  intro perceptible
  have fade : InUnit w.fade := h.fade ▸ valid.wavesFade
  have positive : 0 < value w.fade := (two_zpow_pos _).trans_le (h.fade ▸ perceptible)
  have same : nonnegative w.fade = w.fade :=
    nonnegative_of_pos (isNaN_of_isFinite fade.value.1) positive
  obtain ⟨-, -, falls⟩ := InUnit.dim h.opacity fade
  have less := falls (h.fade ▸ perceptible) shown
  rw [← same] at less
  exact less.ne settled

section Halted

variable {γ : Type} {f : ParticleField γ}

theorem Populated.no_transient_of_settled (h : f.Populated)
    (settled : ∀ p ∈ f.update.particles,
      p.Fading f.config ∧ value p.fadeOut.opacity = value p.opacity)
    (perceptible : Perceptible f.config.burst.fade) :
    ∀ p ∈ f.update.particles, p.isTransient = false := by
  intro p member
  obtain ⟨fading, still⟩ := settled p member
  by_contra transient
  rw [Bool.not_eq_false] at transient
  have shown := h.opacity_pos member transient (isNaN_of_isFinite fading.opacity.value.1)
  exact not_perceptible_of_settled h.valid fading transient shown still perceptible

theorem waves_eq_nil_of_settled (valid : f.config.Valid)
    (settled : ∀ w ∈ f.update.waves, w.Drawn f.config.waves ∧
      value w.advance.radius = value w.radius ∧ value w.advance.opacity = value w.opacity)
    (grows : Perceptible f.config.waves.fade ∨ Outgrows f.config.waves) : f.update.waves = [] := by
  refine List.eq_nil_iff_forall_not_mem.mpr fun w member => ?_
  obtain ⟨drawn, radius, opacity⟩ := settled w member
  obtain ⟨small, shown⟩ := value_lt_of_growing (mem_advanceAll member).1 drawn.radius.1
    drawn.maxRadius.1 (isNaN_of_isFinite drawn.opacity.value.1)
  rcases grows with perceptible | outgrows
  · exact not_perceptible_of_settled_wave valid drawn shown opacity perceptible
  · exact not_outgrows_of_settled valid drawn small radius outgrows

end Halted

theorem beq_of_settled (valid : c.Valid) {p : Particle} (h : p.Fading c)
    (settled : value p.fadeOut.opacity = value p.opacity) :
    (p.fadeOut.opacity == p.opacity) = true :=
  beq_iff.mpr ⟨isNaN_of_isFinite (h.fadeOut valid).1.opacity.value.1,
    isNaN_of_isFinite h.opacity.value.1, settled⟩

theorem beq_of_settled_wave (valid : c.Valid) {w : Wave} (h : w.Drawn c.waves)
    (radius : value w.advance.radius = value w.radius)
    (opacity : value w.advance.opacity = value w.opacity) :
    (w.advance.radius == w.radius && w.advance.opacity == w.opacity) = true := by
  have next := (h.advance valid).1
  rw [Bool.and_eq_true]
  exact ⟨beq_iff.mpr ⟨next.radius.1, h.radius.1, radius⟩,
    beq_iff.mpr ⟨isNaN_of_isFinite next.opacity.value.1, isNaN_of_isFinite h.opacity.value.1,
      opacity⟩⟩

variable {σ : Type} [WordStream σ]

/-- A field that is left alone settles: after some frame, no fade makes a difference to the opacity of
what is left of bursts, and neither growing nor fading does to a wave. Nothing is left of bursts whose
fade is never lost, nor of waves whose fade or speed is not. -/
theorem field_settles (config : FieldConfig) (size : Size) (random : σ)
    (operations : List Operation) (valid : config.validate = .ok ()) (kept : .clear ∉ operations) :
    ∃ start, create config size random = .ok start ∧ ∃ N, ∀ n ≥ N,
      let f := ParticleField.update^[n] (start.play operations)
      (∀ p ∈ f.particles, p.isTransient = true → (p.fadeOut.opacity == p.opacity) = true) ∧
      (∀ w ∈ f.waves, (w.advance.radius == w.radius && w.advance.opacity == w.opacity) = true) ∧
      (Perceptible config.burst.fade → f.particles.length = config.targetCount ∧
        ∀ p ∈ f.particles, p.isTransient = false) ∧
      (Perceptible config.waves.fade ∨ Outgrows config.waves → f.waves = []) := by
  let start : ParticleField σ := populate
    { config, size := size.clamped, particles := [], waves := [], pointer := none, random, frame := 0 }
  have allowed := FieldConfig.validate_eq_ok.mp valid
  have populated : start.Populated := populated_populate allowed (isClamped_clamped size)
  have decaying : start.Decaying :=
    ⟨Random.forall_mem_drawMany (fading_restingParticle allowed size.clamped) _ _,
      List.forall_mem_nil _⟩
  obtain ⟨N, settled⟩ := (decaying.play populated kept).settles (populated.play kept)
  -- One frame more, since what has come to a halt is only retired by the frame after it.
  refine ⟨start, create_of_valid valid size random, N + 1, fun n later => ?_⟩
  obtain ⟨m, rfl⟩ := Nat.exists_eq_add_of_le' (Nat.one_le_of_lt later)
  let before := ParticleField.update^[m] (start.play operations)
  have same : before.config = config :=
    (config_iterate_update _ m).trans (start.config_play operations)
  have whole : before.Populated := (populated.play kept).iterate_update m
  obtain ⟨particles, waves⟩ := settled (m + 1) (by omega)
  rw [start.config_play operations, Function.iterate_succ_apply'] at particles waves
  rw [Function.iterate_succ_apply']
  have gone (perceptible : Perceptible config.burst.fade) :
      ∀ p ∈ before.update.particles, p.isTransient = false :=
    whole.no_transient_of_settled (same.symm ▸ particles) (same.symm ▸ perceptible)
  refine ⟨fun p member _ => ?_, fun w member => ?_, fun perceptible => ⟨?_, gone perceptible⟩,
    fun grows => ?_⟩
  · obtain ⟨fading, still⟩ := particles p member
    exact beq_of_settled allowed fading still
  · obtain ⟨drawn, radius, opacity⟩ := waves w member
    exact beq_of_settled_wave allowed drawn radius opacity
  · have none : before.update.particles.countP isTransient = 0 :=
      List.countP_eq_zero.mpr fun p member => Bool.eq_false_iff.mp (gone perceptible p member)
    rw [whole.update.length, none, Nat.add_zero]
    exact congrArg FieldConfig.targetCount same
  · exact waves_eq_nil_of_settled (same.symm ▸ allowed) (same.symm ▸ waves) (same.symm ▸ grows)

theorem field_settles_quantum :
    let operations : List Operation := [.pointerMove ⟨30.0, 40.0⟩, .click ⟨10.0, 20.0⟩, .update]
    FieldConfig.quantum.validate = .ok () ∧
      ∃ start, create .quantum ⟨400.0, 300.0⟩ (⟨1, 2, 3, 4⟩ : Generator) = .ok start ∧
        ∃ N, ∀ n ≥ N, let f := ParticleField.update^[n] (start.play operations)
          f.particles.length = 100 ∧ (∀ p ∈ f.particles, p.isTransient = false) ∧ f.waves = [] := by
  intro operations
  have valid : FieldConfig.quantum.validate = .ok () := rfl
  have burst : Perceptible FieldConfig.quantum.burst.fade := by
    change (2 : ℚ) ^ (-53 : ℤ) ≤ scaled 5764607523034235 (-59)
    norm_num [scaled]
  have waves : Perceptible FieldConfig.quantum.waves.fade := by
    change (2 : ℚ) ^ (-53 : ℤ) ≤ scaled 5764607523034235 (-58)
    norm_num [scaled]
  obtain ⟨start, created, N, settled⟩ := field_settles .quantum ⟨400.0, 300.0⟩
    (⟨1, 2, 3, 4⟩ : Generator) operations valid (by simp [operations])
  refine ⟨valid, start, created, N, fun n later => ?_⟩
  obtain ⟨-, -, particles, empty⟩ := settled n later
  obtain ⟨length, gone⟩ := particles burst
  exact ⟨length, gone, empty (.inl waves)⟩

/-! ## Fades that are lost -/

def Undimmed (p : Particle) : Prop :=
  p.isTransient = true → p.fadeOut.opacity = p.opacity ∧ ¬ p.opacity ≤ 0.0

theorem Undimmed.stepParticle {p : Particle} (h : Undimmed p) (c : FieldConfig) (size : Size)
    (pointer : Option Point) : Undimmed (stepParticle c size pointer p) := by
  intro transient
  rw [isTransient, fade_stepParticle] at transient
  obtain ⟨still, shown⟩ := h transient
  have opacity := (opacity_stepParticle c size pointer p).trans still
  refine ⟨?_, opacity ▸ shown⟩
  rw [opacity, opacity_fadeOut_congr opacity (fade_stepParticle c size pointer p), still]

section Lost

variable {γ : Type} {f : ParticleField γ}

theorem Populated.length_iterate_update (populated : f.Populated)
    (h : ∀ p ∈ f.particles, Undimmed p) (n : Nat) :
    (ParticleField.update^[n] f).particles.length = f.particles.length := by
  induction n generalizing f with
  | zero => rfl
  | succ n ih =>
      have moved : ∀ p ∈ f.particles.map (ParticleField.stepParticle f.config f.size f.felt),
          Undimmed p := by
        intro p member
        obtain ⟨old, there, rfl⟩ := List.mem_map.mp member
        exact (h old there).stepParticle f.config f.size f.felt
      have all : f.update.particles =
          f.particles.map (ParticleField.stepParticle f.config f.size f.felt) := by
        rw [populated.particles_update, List.filter_eq_self]
        intro p member
        cases transient : p.isTransient with
        | false => simp [isFaded, transient]
        | true => simp [isFaded, transient, (moved p member transient).2]
      rw [Function.iterate_succ_apply, ih populated.update (all ▸ moved), all, List.length_map]

theorem Populated.length_click_of_lost [Sampler γ] (populated : f.Populated)
    (interactive : f.config.interactive = true) (calm : ∀ p ∈ f.particles, p.isTransient = false)
    (fixed : ¬ f.config.burst.opacity.max > f.config.burst.opacity.min)
    (lost : nonnegative (f.config.burst.opacity.min - f.config.burst.fade) =
      f.config.burst.opacity.min)
    (shown : ¬ f.config.burst.opacity.min ≤ 0.0) (source : Point) (n : Nat) :
    (ParticleField.update^[n] (f.click source)).particles.length =
      f.particles.length + f.config.burst.count := by
  have clicked : (f.click source).particles = f.particles ++
      (Random.drawEach (burstParticle f.config source) (List.range f.config.burst.count)
        (f.spawnWave source).random).1 := by
    rw [(f.click_eq source).2.2, if_pos interactive]
    rfl
  have burst : ∀ p ∈ (Random.drawEach (burstParticle f.config source)
      (List.range f.config.burst.count) (f.spawnWave source).random).1, Undimmed p := by
    refine Random.forall_mem_drawEach (fun i _ g => ?_) _
    intro transient
    obtain ⟨⟨g', opacity⟩, -, -, fade, -⟩ := drawn_burstParticle f.config source i g
    rw [Span.sample, if_neg fixed] at opacity
    rw [opacity_fadeOut, if_pos transient, opacity, fade]
    exact ⟨lost, shown⟩
  have undimmed : ∀ p ∈ (f.click source).particles, Undimmed p := by
    rw [clicked]
    intro p member
    rcases List.mem_append.mp member with old | new
    · exact fun transient => absurd transient (by simp [calm p old])
    · exact burst p new
  have after : (f.click source).Populated := 
    populated.operate (show Operation.click source ≠ .clear by simp)
  rw [after.length_iterate_update undimmed, clicked, List.length_append, Random.length_drawEach,
    List.length_range]

end Lost

def faint : FieldConfig where
  targetCount := 0
  burst := { count := 1, speed := ⟨0.0, 0.0⟩, opacity := ⟨1.0, 1.0⟩, fade := 1.0e-17 }

/-- A fade of `1e-17` is accepted, but it is lost in the first frame and in every other one: the only
particle of the burst stays for ever. -/
theorem faint_burst_stays :
    faint.validate = .ok () ∧
      ∃ start, create faint ⟨100.0, 100.0⟩ (Generator.ofSeed 1) = .ok start ∧
        ∀ n, (ParticleField.update^[n] (start.play [.click ⟨50.0, 50.0⟩])).particles.length = 1 := by
  have checked : faint.validate = .ok () := rfl
  have valid := FieldConfig.validate_eq_ok.mp checked
  obtain ⟨start, same⟩ : ∃ start : ParticleField Generator, start = populate
    { config := faint, size := (⟨100.0, 100.0⟩ : Size).clamped, particles := [], waves := [], pointer := none
      random := .ofSeed 1, frame := 0 } := ⟨_, rfl⟩
  have populated : start.Populated := same ▸ populated_populate valid (isClamped_clamped _)
  have created : create faint ⟨100.0, 100.0⟩ (Generator.ofSeed 1) = .ok start := by
    rw [create, checked, same]
    rfl
  have empty : start.particles = [] := by
    rw [same]
    rfl
  have settings : start.config = faint := by
    rw [same]
    rfl
  refine ⟨checked, start, created, fun n => ?_⟩
  change (ParticleField.update^[n] (start.click ⟨50.0, 50.0⟩)).particles.length = 1
  rw [populated.length_click_of_lost] <;> simp only [settings, empty]
  · rfl
  · rfl
  · exact List.forall_mem_nil _
  · decide +kernel
  · decide +kernel
  · decide +kernel

end ParticleField
end AnimatedCanvas
