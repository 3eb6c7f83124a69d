import AnimatedCanvas.Proofs.Field.Quiescence
import AnimatedCanvas.Proofs.Field.Surface
import AnimatedCanvas.Proofs.Random.Watched
import AnimatedCanvas.Proofs.Trail

namespace AnimatedCanvas

open Binary64 Check

namespace ParticleField

open Particle

theorem kept_stepParticle (c : FieldConfig) (size : Size) (pointer : Option Point) (p : Particle) :
    (stepParticle c size pointer p).radius = p.radius ∧
      (stepParticle c size pointer p).color = p.color ∧
      (stepParticle c size pointer p).trail = p.integrate.trail := by
  have faded (q : Particle) : q.fadeOut.radius = q.radius ∧ q.fadeOut.color = q.color ∧
      q.fadeOut.trail = q.trail := by
    unfold Particle.fadeOut
    split <;> exact ⟨rfl, rfl, rfl⟩
  cases pointer with
  | none => exact faded ((p.integrate.reflect size).damp c.damping)
  | some source =>
      have pushed (q : Particle) (radius strength : Float) :
          (q.pushFrom source radius strength).radius = q.radius ∧
            (q.pushFrom source radius strength).color = q.color ∧
            (q.pushFrom source radius strength).trail = q.trail := by
        unfold pushFrom
        dsimp only
        split <;> exact ⟨rfl, rfl, rfl⟩
      obtain ⟨radius, color, trail⟩ := pushed p.integrate c.pointer.radius (force c.pointer)
      obtain ⟨radius', color', trail'⟩ := faded (((p.integrate.pushFrom source c.pointer.radius
        (force c.pointer)).reflect size).damp c.damping)
      exact ⟨radius'.trans radius, color'.trans color, trail'.trans trail⟩

theorem eraseP_iterate_cons {α : Type} {gone : α → Bool} {a : α} (stays : gone a = false)
    (n : Nat) (as : List α) :
    (List.eraseP gone)^[n] (a :: as) = a :: (List.eraseP gone)^[n] as := by
  induction n generalizing as with
  | zero => rfl
  | succ n ih =>
      rw [Function.iterate_succ_apply, Function.iterate_succ_apply,
        List.eraseP_cons_of_neg (by simp [stays]), ih]

theorem dropFirst_eq_eraseP (gone : Particle → Bool) (n : Nat) (ps : List Particle) :
    dropFirst gone n ps = (List.eraseP gone)^[n] ps := by
  induction ps generalizing n with
  | nil =>
      cases n with
      | zero => rfl
      | succ n => exact (Function.iterate_fixed List.eraseP_nil (n + 1)).symm
  | cons p ps ih =>
      cases n with
      | zero => rfl
      | succ n =>
          rw [dropFirst]
          split
          next leaves => rw [ih, Function.iterate_succ_apply, List.eraseP_cons_of_pos leaves]
          next stays => rw [ih, eraseP_iterate_cons (Bool.eq_false_iff.mpr stays)]

/-- A particle and what it was before each frame of its life, the latest first. -/
structure Life where
  now : Particle
  past : List Particle

namespace Life

def start (p : Particle) : Life := ⟨p, []⟩

def step (c : FieldConfig) (size : Size) (pointer : Option Point) (l : Life) : Life :=
  ⟨stepParticle c size pointer l.now, l.now :: l.past⟩

structure Sound (c : FieldConfig) (l : Life) : Prop where
  fading : l.now.Fading c
  radius : 0.0 < l.now.radius
  color : l.now.color ∈ c.palette
  cap : l.now.trail.cap = c.trail.cap
  trail : l.now.trail.length = min c.trail.cap l.past.length
  resting : l.now.fade = 0.0 → ∀ p ∈ l.past, p.opacity = l.now.opacity
  falling : (l.now :: l.past).Pairwise fun later earlier => later.opacity ≤ earlier.opacity

variable {c : FieldConfig} {l : Life}

theorem Sound.step (valid : c.Valid) (size : Size) (pointer : Option Point) (h : l.Sound c) :
    (l.step c size pointer).Sound c := by
  obtain ⟨radius, color, trail⟩ := kept_stepParticle c size pointer l.now
  obtain ⟨fading, falls⟩ := Fading.stepParticle valid size pointer h.fading
  have opacity := opacity_stepParticle c size pointer l.now
  constructor
  · exact fading
  · exact h.radius.trans_eq radius.symm
  · exact color ▸ h.color
  · exact ((congrArg Trail.cap trail).trans (Trail.cap_push _ _)).trans h.cap
  · have bounded : l.now.trail.length ≤ l.now.trail.cap := by
      rw [h.cap, h.trail]
      exact min_le_left _ _
    change (stepParticle c size pointer l.now).trail.length = min c.trail.cap (l.past.length + 1)
    rw [trail, integrate, Trail.length_push bounded, h.cap, h.trail]
    omega
  · -- Without a fade, the opacity has never changed.
    intro faded p member
    have rest : l.now.fade = 0.0 := (fade_stepParticle c size pointer l.now).symm.trans faded
    have still : l.now.fadeOut.opacity = l.now.opacity := by
      rw [opacity_fadeOut, isTransient, rest]
      rfl
    change p.opacity = (stepParticle c size pointer l.now).opacity
    rw [opacity, still]
    rcases List.mem_cons.mp member with rfl | earlier
    · rfl
    · exact h.resting rest p earlier
  · have number := isNaN_of_isFinite fading.opacity.value.1
    refine List.pairwise_cons.mpr ⟨fun p member => ?_, h.falling⟩
    rcases List.mem_cons.mp member with rfl | earlier
    · exact le_iff.mpr ⟨number, isNaN_of_isFinite h.fading.opacity.value.1, falls⟩
    · obtain ⟨-, real, le⟩ := le_iff.mp (List.rel_of_pairwise_cons h.falling earlier)
      exact le_iff.mpr ⟨number, real, falls.trans le⟩

end Life

theorem map_now_start (ps : List Particle) : (ps.map Life.start).map Life.now = ps := by
  rw [List.map_map]
  exact List.map_id ps

theorem map_iterate_eraseP {α β : Type} (f : α → β) (gone : β → Bool) (n : Nat) (as : List α) :
    ((List.eraseP (gone ∘ f))^[n] as).map f = (List.eraseP gone)^[n] (as.map f) := by
  induction n generalizing as with
  | zero => rfl
  | succ n ih => rw [Function.iterate_succ_apply, Function.iterate_succ_apply, ih, List.eraseP_map]

theorem mem_of_mem_eraseP_iterate {α : Type} {gone : α → Bool} {n : Nat} {as : List α} {a : α}
    (member : a ∈ (List.eraseP gone)^[n] as) : a ∈ as := by
  induction n generalizing as with
  | zero => exact member
  | succ n ih => exact List.mem_of_mem_eraseP (ih member)

section Runs

variable {γ : Type} [Sampler γ] [Trigonometry]

/-- The lives after an operation: a frame goes on with all of them and ends some, and what is born
starts one. -/
def liveOn (f : ParticleField γ) (lives : List Life) : Operation → List Life
  | .update =>
    (List.eraseP fun l => isRetirable f.size f.config.retireMargin l.now)^[
      lives.length - f.config.targetCount] (lives.map (Life.step f.config f.size f.felt))
  | .clear => []
  | .resize size => (f.born (.resize size)).map Life.start
  | operation => lives ++ (f.born operation).map Life.start

def lives (f : ParticleField γ) (now : List Life) : List Operation → List Life
  | [] => now
  | operation :: later => (f.operate operation).lives (f.liveOn now operation) later

theorem map_liveOn {f : ParticleField γ} {lives : List Life}
    (same : lives.map Life.now = f.particles) (operation : Operation) :
    (f.liveOn lives operation).map Life.now = (f.operate operation).particles := by
  have joined : (lives ++ (f.born operation).map Life.start).map Life.now =
      f.particles ++ f.born operation := by
    rw [List.map_append, same, map_now_start]
  cases operation with
  | pointerMove position =>
      exact joined.trans ((List.append_nil _).trans (f.pointerMove_eq position).2.2.symm)
  | pointerLeave => exact joined.trans (List.append_nil _)
  | click position => exact joined.trans (f.particles_click position).symm
  | update =>
      have length : lives.length = f.particles.length := by rw [← same, List.length_map]
      have moved : (lives.map (Life.step f.config f.size f.felt)).map Life.now =
          f.particles.map (stepParticle f.config f.size f.felt) := by
        rw [← same, List.map_map, List.map_map]
        rfl
      -- Lives end in the order in which particles are retired, since both go by the particle of now.
      change ((List.eraseP (isRetirable f.size f.config.retireMargin ∘ Life.now))^[_] _).map _ =
        dropFirst _ _ (f.particles.map (stepParticle f.config f.size f.felt))
      rw [map_iterate_eraseP, moved, length, dropFirst_eq_eraseP]
      simp only [List.length_map]
  | resize size => exact map_now_start _
  | clear => rfl

theorem map_lives {f : ParticleField γ} {now : List Life} (same : now.map Life.now = f.particles)
    (operations : List Operation) :
    (f.lives now operations).map Life.now = (f.play operations).particles := by
  induction operations generalizing f now with
  | nil => exact same
  | cons operation later ih => exact ih (map_liveOn same operation)

end Runs

section Births

variable {σ : Type} [WordStream σ] {c : FieldConfig}

theorem sample_pos {s : Span} (h : s.Drawable ∧ ¬ s.min ≤ 0.0) (g : σ) : 0.0 < (s.sample g).1 := by
  obtain ⟨drawable, positive⟩ := h
  have holds := Span.holds_sample drawable g
  have above : value 0.0 < value s.min := by
    by_contra notAbove
    exact positive (le_iff.mpr ⟨isNaN_of_isFinite drawable.min, rfl, not_lt.mp notAbove⟩)
  exact lt_iff.mpr ⟨rfl, isNaN_of_isFinite holds.finite, above.trans_le holds.min⟩

theorem Life.sound_start {p : Particle} (fading : p.Fading c) (radius : 0.0 < p.radius)
    (color : p.color ∈ c.palette) (trail : p.trail = .empty c.trail.cap) : (start p).Sound c where
  fading := fading
  radius := radius
  color := color
  cap := by rw [start, trail]; rfl
  trail := by rw [start, trail]; exact (Nat.min_zero _).symm
  resting := fun _ => List.forall_mem_nil _
  falling := List.pairwise_singleton _ _

theorem sound_restingParticle (valid : c.Valid) (size : Size) (g : σ) :
    (Life.start (restingParticle c size g).1).Sound c := by
  apply Life.sound_start (fading_restingParticle valid size g)
  · unfold restingParticle
    dsimp only
    exact sample_pos valid.radius _
  · exact Random.pick_mem valid.palette g
  · rfl

theorem sound_burstParticle [Trigonometry] (valid : c.Valid) (source : Point) (i : Nat) (g : σ) :
    (Life.start (burstParticle c source i g).1).Sound c := by
  obtain ⟨-, ⟨g', radius⟩, ⟨g'', color⟩, -, trail⟩ := drawn_burstParticle c source i g
  apply Life.sound_start (fading_burstParticle valid source i g)
  · exact radius ▸ sample_pos valid.burstRadius g'
  · exact color ▸ Random.pick_mem valid.palette g''
  · exact trail

variable [Trigonometry]

theorem forall_mem_born {γ : Type} [Sampler γ] {f : ParticleField γ} {P : Particle → Prop}
    (resting : ∀ (size : Size) (g : γ), P (restingParticle f.config size g).1)
    (burst : ∀ (source : Point) (i : Nat) (g : γ), P (burstParticle f.config source i g).1)
    (operation : Operation) : ∀ p ∈ f.born operation, P p := by
  cases operation with
  | click position =>
      simp only [born]
      split
      · exact Random.forall_mem_drawEach (fun i _ => burst position i) _
      · exact List.forall_mem_nil _
  | resize size => exact Random.forall_mem_drawMany (resting size.clamped) _ _
  | pointerMove position => exact List.forall_mem_nil _
  | pointerLeave => exact List.forall_mem_nil _
  | update => exact List.forall_mem_nil _
  | clear => exact List.forall_mem_nil _

variable {f : ParticleField σ}

theorem sound_born (valid : f.config.Valid) (operation : Operation) :
    ∀ p ∈ f.born operation, (Life.start p).Sound f.config :=
  forall_mem_born (P := fun p => (Life.start p).Sound f.config) (sound_restingParticle valid)
    (sound_burstParticle valid) operation

theorem sound_liveOn (valid : f.config.Valid) {lives : List Life}
    (sound : ∀ l ∈ lives, l.Sound f.config) (operation : Operation) :
    ∀ l ∈ f.liveOn lives operation, l.Sound f.config := by
  have started : ∀ l ∈ (f.born operation).map Life.start, l.Sound f.config :=
    List.forall_mem_map.mpr (sound_born valid operation)
  have joined := List.forall_mem_append.mpr ⟨sound, started⟩
  cases operation with
  | pointerMove position => exact joined
  | pointerLeave => exact joined
  | click position => exact joined
  | update =>
      intro l member
      obtain ⟨old, there, rfl⟩ := List.mem_map.mp (mem_of_mem_eraseP_iterate member)
      exact (sound old there).step valid f.size f.felt
  | resize size => exact started
  | clear => exact List.forall_mem_nil _

theorem sound_play (valid : f.config.Valid) {now : List Life} (sound : ∀ l ∈ now, l.Sound f.config)
    (operations : List Operation) : ∀ l ∈ f.lives now operations, l.Sound f.config := by
  induction operations generalizing f now with
  | nil => exact sound
  | cons operation later ih =>
      have same := f.config_operate operation
      rw [← same]
      exact ih (same ▸ valid) (same ▸ sound_liveOn valid sound operation)

/-- What holds of every particle of a field, whatever has been done to the field. -/
theorem sound_lives (config : FieldConfig) (size : Size) (random : σ) (operations : List Operation)
    (valid : config.validate = .ok ()) :
    ∃ start, create config size random = .ok start ∧
      let lives := start.lives (start.particles.map Life.start) operations
      lives.map Life.now = (start.play operations).particles ∧
      ∀ l ∈ lives,
        (l.now.opacity ≥ 0.0 ∧ l.now.opacity ≤ 1.0) ∧ l.now.radius > 0.0 ∧
        l.now.color ∈ config.palette ∧
        (l.now.fade = 0.0 ∨ l.now.fade = config.burst.fade) ∧
        l.now.trail.cap = config.trail.cap ∧
        l.now.trail.length = min config.trail.cap l.past.length ∧
        (l.now.fade = 0.0 → ∀ p ∈ l.past, p.opacity = l.now.opacity) ∧
        (l.now :: l.past).Pairwise fun later earlier => later.opacity ≤ earlier.opacity := by
  have allowed := FieldConfig.validate_eq_ok.mp valid
  let start : ParticleField σ := populate
    { config, size := size.clamped, particles := [], waves := [], pointer := none, random, frame := 0 }
  have first : ∀ l ∈ start.particles.map Life.start, l.Sound config := List.forall_mem_map.mpr <|
    Random.forall_mem_drawMany (P := fun p => (Life.start p).Sound config)
      (sound_restingParticle allowed size.clamped) config.targetCount random
  refine ⟨start, create_of_valid valid size random, map_lives (map_now_start _) operations, ?_⟩
  intro l member
  have sound := sound_play (f := start) allowed first operations l member
  exact ⟨sound.fading.opacity, sound.radius, sound.color, sound.fading.fade, sound.cap, sound.trail,
    sound.resting, sound.falling⟩

end Births

theorem sound_lives_quantum :
    let operations : List Operation :=
      [.click ⟨-5.0, 0.0 / 0.0⟩, .update, .clear, .update, .resize ⟨80.0, 60.0⟩, .click ⟨10.0, 20.0⟩,
        .update]
    FieldConfig.quantum.validate = .ok () ∧
      ∃ start, create .quantum ⟨400.0, 300.0⟩ (⟨1, 2, 3, 4⟩ : Generator) = .ok start ∧
        let lives := start.lives (start.particles.map Life.start) operations
        lives.map Life.now = (start.play operations).particles ∧
        ∀ l ∈ lives, l.now.radius > 0.0 ∧ l.now.trail.length = min 10 l.past.length := by
  intro operations
  have valid : FieldConfig.quantum.validate = .ok () := rfl
  obtain ⟨start, created, same, sound⟩ := sound_lives .quantum ⟨400.0, 300.0⟩
    (⟨1, 2, 3, 4⟩ : Generator) operations valid
  refine ⟨valid, start, created, same, fun l member => ?_⟩
  obtain ⟨-, radius, -, -, -, trail, -⟩ := sound l member
  exact ⟨radius, trail⟩

end ParticleField
end AnimatedCanvas
