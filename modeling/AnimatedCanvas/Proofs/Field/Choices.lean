import AnimatedCanvas.Proofs.Field.Surface
import AnimatedCanvas.Proofs.Random.Watched

namespace AnimatedCanvas.ParticleField

open AnimatedCanvas.Random Particle

/-- What can be asked of a field: operations, and the parts of them on their own. -/
inductive Call where
  | operation (operation : Operation)
  | populate
  | spawnWave (center : Point)
  | spawnBurst (source : Point)

section Calls

variable {γ : Type} [Sampler γ] [Trigonometry]

def call (f : ParticleField γ) : Call → ParticleField γ
  | .operation operation => f.operate operation
  | .populate => f.populate
  | .spawnWave center => f.spawnWave center
  | .spawnBurst source => f.spawnBurst source

def callAll (f : ParticleField γ) (calls : List Call) : ParticleField γ := calls.foldl call f

end Calls

variable {γ : Type} [Sampler γ] [Sampler.Lawful γ]

theorem watches_restingParticle {c : FieldConfig} (valid : c.Valid) {size : Size}
    (clamped : IsClamped size) :
    Watches (restingParticle c size) (restingParticle c size : γ → Particle × γ) := by
  intro w sound
  have color := watches_pick valid.palette w sound
  have x := color.next (watches_sample (drawable_side clamped.1))
  have y := x.next (watches_sample (drawable_side clamped.2))
  have speedX := y.next (watches_sample valid.speed)
  have speedY := speedX.next (watches_sample valid.speed)
  have radius := speedY.next (watches_sample valid.radius.1)
  have opacity := radius.next (watches_sample valid.opacity.1)
  refine ⟨?_, opacity.source, opacity.sound⟩
  simp only [restingParticle, color.value, x.value, y.value, speedX.value, speedY.value,
    radius.value, opacity.value]

theorem watches_burstParticle [Trigonometry] {c : FieldConfig} (valid : c.Valid) (source : Point)
    (i : Nat) : Watches (burstParticle c source i) (burstParticle c source i : γ → Particle × γ) := by
  intro w sound
  have speed := watches_sample valid.burstSpeed w sound
  have color := speed.next (watches_pick valid.palette)
  have radius := color.next (watches_sample valid.burstRadius.1)
  have opacity := radius.next (watches_sample valid.burstOpacity.1)
  refine ⟨?_, opacity.source, opacity.sound⟩
  simp only [burstParticle, speed.value, color.value, radius.value, opacity.value]

theorem watches_newWave {c : FieldConfig} (valid : c.Valid) (center : Point) :
    Watches (newWave c.waves center) (newWave c.waves center : γ → Wave × γ) := by
  intro w sound
  have maxRadius := watches_sample valid.wavesMaxRadius w sound
  have speed := maxRadius.next (watches_sample valid.wavesSpeed)
  have color := speed.next (watches_pick valid.wavesPalette)
  refine ⟨?_, color.source, color.sound⟩
  simp only [newWave, maxRadius.value, speed.value, color.value]

def unwatched (f : ParticleField (Watched γ)) : ParticleField γ :=
  { f with random := f.random.source }

structure Follows (f : ParticleField (Watched γ)) (plain : ParticleField γ) : Prop where
  same : f.unwatched = plain
  valid : f.config.Valid
  clamped : IsClamped f.size
  sound : f.random.IsSound

variable {f : ParticleField (Watched γ)} {plain : ParticleField γ}

theorem Follows.populate (h : f.Follows plain) : f.populate.Follows plain.populate := by
  have drawn := watches_drawMany (watches_restingParticle h.valid h.clamped) f.config.targetCount
    f.random h.sound
  obtain rfl := h.same
  refine ⟨?_, h.valid, h.clamped, drawn.sound⟩
  simp only [ParticleField.populate, unwatched, drawn.value, drawn.source]

theorem Follows.spawnWave (h : f.Follows plain) (center : Point) :
    (f.spawnWave center).Follows (plain.spawnWave center) := by
  have drawn := watches_newWave h.valid center f.random h.sound
  obtain rfl := h.same
  refine ⟨?_, h.valid, h.clamped, drawn.sound⟩
  simp only [ParticleField.spawnWave, unwatched, drawn.value, drawn.source]

theorem Follows.spawnBurst [Trigonometry] (h : f.Follows plain) (source : Point) :
    (f.spawnBurst source).Follows (plain.spawnBurst source) := by
  have each : ∀ i ∈ List.range f.config.burst.count,
      Watches (burstParticle f.config source i) (burstParticle f.config source i : γ → Particle × γ) :=
    fun i _ => watches_burstParticle h.valid source i
  have drawn := watches_drawEach each f.random h.sound
  obtain rfl := h.same
  refine ⟨?_, h.valid, h.clamped, drawn.sound⟩
  simp only [ParticleField.spawnBurst, unwatched, drawn.value, drawn.source]

theorem Follows.pointerMove (h : f.Follows plain) (position : Point) :
    (f.pointerMove position).2.Follows (plain.pointerMove position).2 := by
  have leaves := watches_chance h.valid.wavesChance f.random h.sound
  obtain rfl := h.same
  have moved : Follows
      { f with
        pointer := some position, random := (Sampler.chance f.config.waves.chance f.random).2 }
      { f.unwatched with
        pointer := some position
        random := (Sampler.chance f.config.waves.chance f.random.source).2 } :=
    ⟨by simp only [unwatched, leaves.source], h.valid, h.clamped, leaves.sound⟩
  have interactive : f.unwatched.config.interactive = f.config.interactive := rfl
  have answer : (Sampler.chance f.unwatched.config.waves.chance f.unwatched.random).1 =
      (Sampler.chance f.config.waves.chance f.random).1 := leaves.value.symm
  simp only [ParticleField.pointerMove, interactive, answer]
  split
  · exact h
  · split
    · exact moved.spawnWave position
    · exact moved

variable [Trigonometry]

theorem Follows.operate (h : f.Follows plain) (operation : Operation) :
    (f.operate operation).Follows (plain.operate operation) := by
  cases operation with
  | pointerMove position => exact h.pointerMove position
  | click position =>
      have clicked := (h.spawnWave position).spawnBurst position
      obtain rfl := h.same
      have interactive : f.unwatched.config.interactive = f.config.interactive := rfl
      simp only [ParticleField.operate, click, interactive]
      split
      · exact h
      · exact clicked
  | resize size =>
      have fitted : Follows { f with size := size.clamped } { plain with size := size.clamped } :=
        ⟨by rw [← h.same]; rfl, h.valid, isClamped_clamped size, h.sound⟩
      exact fitted.populate
  | pointerLeave => exact ⟨by rw [← h.same]; rfl, h.valid, h.clamped, h.sound⟩
  | update => exact ⟨by rw [← h.same]; rfl, h.valid, h.clamped, h.sound⟩
  | clear => exact ⟨by rw [← h.same]; rfl, h.valid, h.clamped, h.sound⟩

theorem Follows.call (h : f.Follows plain) (call : Call) : (f.call call).Follows (plain.call call) := by
  cases call with
  | operation operation => exact h.operate operation
  | populate => exact h.populate
  | spawnWave center => exact h.spawnWave center
  | spawnBurst source => exact h.spawnBurst source

theorem Follows.callAll (h : f.Follows plain) (calls : List Call) :
    (f.callAll calls).Follows (plain.callAll calls) := by
  induction calls generalizing f plain with
  | nil => exact h
  | cons call calls ih => exact ih (h.call call)

omit [Trigonometry] in
theorem exists_create {config : FieldConfig} (valid : config.validate = .ok ()) (size : Size)
    (random : γ) : ∃ watched plain, create config size (Watched.start random) = .ok watched ∧
      create config size random = .ok plain ∧ watched.Follows plain := by
  refine ⟨_, _, create_of_valid valid size _, create_of_valid valid size random, Follows.populate ?_⟩
  exact ⟨rfl, FieldConfig.validate_eq_ok.mp valid, isClamped_clamped size,
    Watched.isSound_start random⟩

end AnimatedCanvas.ParticleField
