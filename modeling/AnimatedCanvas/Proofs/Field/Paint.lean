import AnimatedCanvas.Proofs.Binary64.NotANumber
import AnimatedCanvas.Proofs.Config.Words
import AnimatedCanvas.Proofs.Field.Frame
import AnimatedCanvas.Proofs.Field.Ledger

namespace AnimatedCanvas

open Binary64 Check

def DrawCommand.Paintable : DrawCommand → Prop
  | .clear => True
  | .fillRect _ _ color => InUnit color.alpha
  | .fillCircle _ radius color => radius ≥ 0.0 ∧ InUnit color.alpha
  | .strokeCircle _ radius color width => radius ≥ 0.0 ∧ InUnit color.alpha ∧ width ≥ 0.0
  | .fillGlow _ radius inner outer => radius ≥ 0.0 ∧ InUnit inner.alpha ∧ InUnit outer.alpha
  | .line _ _ color width => InUnit color.alpha ∧ width ≥ 0.0
  | .fillText _ _ style => InUnit style.color.alpha

structure Particle.Paintable (p : Particle) : Prop where
  opacity : InUnit p.opacity
  radius : AtLeastZero p.radius
  color : InUnit p.color.alpha

theorem Color.inUnit_withAlpha (color : Color) {alpha : Float} (number : alpha.isNaN = false) :
    InUnit (color.withAlpha alpha).alpha := inUnit_clampTo number

theorem Color.inUnit_transparent (color : Color) : InUnit color.transparent.alpha :=
  color.inUnit_withAlpha rfl

theorem mul_atLeastZero {x y : Float} (hx : AtLeastZero x) (hy : AtLeastZero y) : x * y ≥ 0.0 := by
  obtain ⟨number, between⟩ := between_mul hx.2 hy.2
  have nonneg := (le_iff.mp hx.1).2.2
  have nonneg' := (le_iff.mp hy.1).2.2
  rw [value_zero] at nonneg nonneg'
  exact le_iff.mpr ⟨rfl, number, between.nonneg (mul_nonneg nonneg nonneg')⟩

namespace ParticleField

section Invariants

variable {γ : Type} [Sampler γ] [Trigonometry] {c : FieldConfig} {f : ParticleField γ}

theorem forall_waves_play {P : Wave → Prop}
    (new : ∀ (center : Point) (g : γ), P (newWave c.waves center g).1)
    (advance : ∀ w, P w → P w.advance) (same : f.config = c) (now : ∀ w ∈ f.waves, P w)
    (operations : List Operation) : ∀ w ∈ (f.play operations).waves, P w := by
  induction operations generalizing f with
  | nil => exact now
  | cons operation operations ih =>
      refine ih ((f.config_operate operation).trans same) ?_
      by_cases frame : operation = .update
      · subst frame
        intro w member
        obtain ⟨-, old, there, rfl⟩ := mem_advanceAll member
        exact advance old (now old there)
      by_cases cleared : operation = .clear
      · subst cleared
        exact List.forall_mem_nil _
      rw [waves_operate frame cleared]
      exact List.forall_mem_append.mpr ⟨now, forall_mem_spawned (same ▸ new) operation⟩

theorem forall_particles_play {P : Particle → Prop}
    (resting : ∀ (size : Size) (g : γ), P (restingParticle c size g).1)
    (burst : ∀ (source : Point) (i : Nat) (g : γ), P (burstParticle c source i g).1)
    (step : ∀ (size : Size) (pointer : Option Point) (p : Particle), P p →
      P (stepParticle c size pointer p))
    (same : f.config = c) (now : ∀ p ∈ f.particles, P p) (operations : List Operation) :
    ∀ p ∈ (f.play operations).particles, P p := by
  induction operations generalizing f with
  | nil => exact now
  | cons operation operations ih =>
      refine ih ((f.config_operate operation).trans same) ?_
      subst same
      have born := forall_mem_born resting burst operation
      cases operation with
      | pointerMove position => exact (f.pointerMove_eq position).2.2 ▸ now
      | pointerLeave => exact now
      | click position => exact f.particles_click position ▸ List.forall_mem_append.mpr ⟨now, born⟩
      | update =>
          intro p member
          obtain ⟨old, there, rfl⟩ := List.mem_map.mp (mem_of_mem_dropFirst member)
          exact step f.size f.felt old (now old there)
      | resize size => exact born
      | clear => exact List.forall_mem_nil _

end Invariants

section Commands

variable {c : FieldConfig}

theorem paintable_backdropCommand {γ : Type} {f : ParticleField γ} (valid : f.config.Valid) :
    f.backdropCommand.Paintable := by
  unfold backdropCommand
  split
  next => trivial
  next color alpha fades =>
    exact color.inUnit_withAlpha (isNaN_of_isFinite (valid.backdrop color alpha fades).finite)

theorem paintable_waveCommand (valid : c.Valid) {w : Wave} (drawn : w.Drawn c.waves) :
    (waveCommand c.waves w).Paintable := by
  have radius : w.radius ≥ 0.0 := le_iff.mpr ⟨rfl, drawn.radius.1, drawn.radius.2⟩
  have color := w.color.inUnit_withAlpha (isNaN_of_isFinite drawn.opacity.finite)
  unfold waveCommand
  dsimp only
  split
  · exact ⟨radius, color, valid.wavesLineWidth.1⟩
  · exact ⟨radius, color, w.color.inUnit_transparent⟩

theorem paintable_line (valid : c.Valid) {ps : List Particle} {i j : Nat} {command : DrawCommand}
    (line : IsLine c.links ps i j command) : command.Paintable := by
  obtain ⟨⟨far, seen⟩, p, q, -, -, -, near, rfl⟩ := line
  -- A distance below a finite one is a number, whatever the positions are, and so is what follows from it.
  have distance := (lt_iff.mp near).1
  have nonzero := (lt_iff.mp far).2.2.ne'
  have nonzero' := (lt_iff.mp seen).2.2.ne'
  have share := isNaN_div distance valid.linksDistance.2 nonzero
  have rest : (1.0 - p.position.distance q.position / c.links.distance).isNaN = false := by
    rw [sub_eq_add]
    exact isNaN_add rfl ((isNaN_neg _).trans share)
  exact ⟨c.links.color.inUnit_withAlpha (isNaN_mul rest valid.linksOpacity.finite nonzero'),
    valid.linksWidth.1⟩

theorem paintable_dot (valid : c.Valid) {ps : List Particle} (paintable : ∀ p ∈ ps, p.Paintable)
    {k i : Nat} {command : DrawCommand} (dot : IsDot c.trail ps k i command) : command.Paintable := by
  obtain ⟨p, point, there, -, seen, rfl⟩ := dot
  have particle := paintable p (List.mem_of_getElem? there)
  exact ⟨mul_atLeastZero particle.radius valid.trailScale,
    p.color.inUnit_withAlpha (lt_iff.mp seen).2.1⟩

theorem paintable_particleDots (valid : c.Valid) {p : Particle} (paintable : p.Paintable) :
    ∀ command ∈ particleDots c p, command.Paintable := by
  have opacity := p.color.inUnit_withAlpha (isNaN_of_isFinite paintable.opacity.finite)
  have glow : (glow c p).Paintable :=
    ⟨mul_atLeastZero paintable.radius valid.glowScale, opacity, p.color.inUnit_transparent⟩
  have core : (core c p).Paintable := by
    refine ⟨paintable.radius.1, ?_⟩
    split
    · exact paintable.color
    · exact opacity
  unfold particleDots
  split
  · simp [glow, core]
  · simp [core]

end Commands

section Frames

variable {σ : Type} [WordStream σ] [Trigonometry] {config : FieldConfig} {size : Size} {random : σ}
  {start : ParticleField σ}

theorem drawn_waves (valid : config.validate = .ok ())
    (created : create config size random = .ok start) (operations : List Operation) :
    ∀ w ∈ (start.play operations).waves, w.Drawn config.waves := by
  have allowed := FieldConfig.validate_eq_ok.mp valid
  obtain rfl := eq_of_create valid created
  exact forall_waves_play (c := config) (drawn_newWave allowed)
    (fun w drawn => (drawn.advance allowed).1) rfl (List.forall_mem_nil _) operations

theorem finite_radius (valid : config.validate = .ok ())
    (created : create config size random = .ok start) (operations : List Operation) :
    ∀ p ∈ (start.play operations).particles, p.radius.isFinite = true := by
  have allowed := FieldConfig.validate_eq_ok.mp valid
  obtain rfl := eq_of_create valid created
  have resting (size : Size) (g : σ) : (restingParticle config size g).1.radius.isFinite = true := by
    unfold restingParticle
    dsimp only
    exact (Span.holds_sample allowed.radius.1 _).finite
  refine forall_particles_play (c := config) resting (fun source i g => ?_)
    (fun size pointer p finite => ?_) rfl (Random.forall_mem_drawMany (resting size.clamped) _ _)
    operations
  · obtain ⟨-, ⟨g', radius⟩, -⟩ := drawn_burstParticle config source i g
    exact radius ▸ (Span.holds_sample allowed.burstRadius.1 g').finite
  · exact (kept_stepParticle config size pointer p).1 ▸ finite

theorem paintable_particles (valid : config.validate = .ok ())
    (clear : ∀ color ∈ config.palette, color.Opaque)
    (created : create config size random = .ok start) (operations : List Operation) :
    ∀ p ∈ (start.play operations).particles, p.Paintable := by
  intro p member
  have finite := finite_radius valid created operations p member
  obtain ⟨l, rfl, sound⟩ := exists_sound valid created operations p member
  obtain ⟨-, number, positive⟩ := lt_iff.mp sound.radius
  refine ⟨sound.fading.opacity, ⟨le_iff.mpr ⟨rfl, number, positive.le⟩, finite⟩, ?_⟩
  rw [clear _ sound.color]
  exact inUnit_one

/-- Whatever a configuration comes from and whatever has been done to the field, every command of its
frame can be painted. -/
theorem render_paintable (config : FieldConfig) (size : Size) (random : σ)
    (operations : List Operation) (obtained : Obtained FieldConfig.Given config) :
    ∃ start, create config size random = .ok start ∧
      ∀ command ∈ (start.play operations).render, command.Paintable := by
  have valid := obtained.valid FieldConfig.Given.valid
  have allowed := FieldConfig.validate_eq_ok.mp valid
  have clear := (FieldConfig.regular_iff.mp (obtained.regular FieldConfig.Given.regular)).1
  obtain ⟨start, created⟩ : ∃ start, create config size random = .ok start :=
    ⟨_, create_of_valid valid size random⟩
  have alphas := trailAlpha_play valid obtained.words.trailCap created operations
  have waves := drawn_waves valid created operations
  have particles := paintable_particles valid clear created operations
  have same := config_play_of_create valid created operations
  refine ⟨start, created, ?_⟩
  generalize start.play operations = f at same alphas waves particles
  subst same
  have lines := tabled_linkCommands allowed
  have dots := tabled_trailCommands fun p member i inside => (alphas p member i inside).1
  refine List.forall_mem_cons.mpr ⟨paintable_backdropCommand allowed, ?_⟩
  simp only [List.forall_mem_append]
  -- Waves, lines, the dots of trails and the particles, as they are drawn.
  refine ⟨⟨⟨?_, ?_⟩, ?_⟩, ?_⟩
  · refine List.forall_mem_map.mpr fun w member => ?_
    exact paintable_waveCommand allowed (waves w (List.mem_of_mem_filter member))
  · intro command member
    obtain ⟨i, j, line⟩ := lines.exists_of_mem member
    exact paintable_line allowed line
  · intro command member
    obtain ⟨k, i, dot⟩ := dots.exists_of_mem member
    exact paintable_dot allowed particles dot
  · intro command member
    obtain ⟨p, there, member⟩ := List.mem_flatMap.mp member
    exact paintable_particleDots allowed (particles p there) command member

end Frames

theorem render_paintable_hero :
    let operations : List Operation :=
      [.pointerMove ⟨0.0 / 0.0, 5.0⟩, .click ⟨1.0 / 0.0, 20.0⟩, .update, .clear, .update,
        .resize ⟨0.0 / 0.0, 60.0⟩, .click ⟨0.0 / 0.0, 0.0 / 0.0⟩, .update]
    Obtained FieldConfig.Given .hero ∧
      ∃ start, create .hero ⟨400.0, 300.0⟩ (⟨1, 2, 3, 4⟩ : Generator) = .ok start ∧
        ∀ command ∈ (start.play operations).render, command.Paintable := by
  intro operations
  have preset : FieldConfig.preset "hero" = .ok .hero := by simp [FieldConfig.preset]
  have obtained : Obtained FieldConfig.Given .hero := .given (.inr ⟨"hero", preset⟩)
  exact ⟨obtained,
    render_paintable .hero ⟨400.0, 300.0⟩ (⟨1, 2, 3, 4⟩ : Generator) operations obtained⟩

end ParticleField
end AnimatedCanvas
