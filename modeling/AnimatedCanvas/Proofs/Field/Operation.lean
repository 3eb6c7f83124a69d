import AnimatedCanvas.Field

namespace AnimatedCanvas.ParticleField

variable {γ : Type} [Sampler γ] [Trigonometry]

inductive Operation where
  | pointerMove (position : Point)
  | pointerLeave
  | click (position : Point)
  | update
  | resize (size : Size)
  | clear

def operate (f : ParticleField γ) : Operation → ParticleField γ
  | .pointerMove position => (f.pointerMove position).2
  | .pointerLeave => f.pointerLeave
  | .click position => f.click position
  | .update => f.update
  | .resize size => f.resize size
  | .clear => f.clear

def play (f : ParticleField γ) (operations : List Operation) : ParticleField γ :=
  operations.foldl operate f

def born (f : ParticleField γ) : Operation → List Particle
  | .click position =>
    if f.config.interactive then
      let (_, random) := newWave f.config.waves position f.random
      (Random.drawEach (burstParticle f.config position) (List.range f.config.burst.count) random).1
    else []
  | .resize size => (f.resize size).particles
  | _ => []

inductive Outcome (f : ParticleField γ) : Operation → ParticleField γ → Prop
  | moveIgnored (position : Point) : Outcome f (.pointerMove position) f
  | moved (position : Point) (random : γ) :
      Outcome f (.pointerMove position) { f with pointer := some position, random }
  | waved (position : Point) (random : γ) : Outcome f (.pointerMove position)
      (({ f with pointer := some position, random } : ParticleField γ).spawnWave position)
  | left : Outcome f .pointerLeave f.pointerLeave
  | clickIgnored (position : Point) : Outcome f (.click position) f
  | clicked (position : Point) :
      Outcome f (.click position) ((f.spawnWave position).spawnBurst position)
  | updated : Outcome f .update f.update
  | resized (size : Size) : Outcome f (.resize size) (f.resize size)
  | cleared : Outcome f .clear f.clear

theorem outcome_operate (f : ParticleField γ) (operation : Operation) :
    f.Outcome operation (f.operate operation) := by
  cases operation with
  | pointerMove position =>
      simp only [operate, pointerMove]
      split
      · exact .moveIgnored position
      · split
        · exact .waved position _
        · exact .moved position _
  | pointerLeave => exact .left
  | click position =>
      simp only [operate, click]
      split
      · exact .clickIgnored position
      · exact .clicked position
  | update => exact .updated
  | resize size => exact .resized size
  | clear => exact .cleared

omit [Trigonometry] in
theorem create_of_valid {config : FieldConfig} (valid : config.validate = .ok ()) (size : Size)
    (random : γ) : create config size random = .ok (populate
      { config, size := size.clamped, particles := [], waves := [], pointer := none, random
        frame := 0 }) := by
  rw [create, valid]
  rfl

omit [Trigonometry] in
theorem validate_of_create {config : FieldConfig} {size : Size} {random : γ}
    {start : ParticleField γ} (created : create config size random = .ok start) :
    config.validate = .ok () := by
  rw [create] at created
  cases checked : config.validate with
  | ok _ => rfl
  | error e =>
      rw [checked] at created
      cases created

omit [Trigonometry] in
theorem eq_of_create {config : FieldConfig} (valid : config.validate = .ok ()) {size : Size}
    {random : γ} {start : ParticleField γ} (created : create config size random = .ok start) :
    start = populate
      { config, size := size.clamped, particles := [], waves := [], pointer := none, random
        frame := 0 } :=
  Except.ok.inj (created.symm.trans (create_of_valid valid size random))

omit [Trigonometry] in
theorem pointerMove_eq (f : ParticleField γ) (position : Point) :
    (f.pointerMove position).2.config = f.config ∧ (f.pointerMove position).2.size = f.size ∧
      (f.pointerMove position).2.particles = f.particles := by
  unfold pointerMove
  split
  · exact ⟨rfl, rfl, rfl⟩
  · dsimp only
    split <;> exact ⟨rfl, rfl, rfl⟩

theorem click_eq (f : ParticleField γ) (position : Point) :
    (f.click position).config = f.config ∧ (f.click position).size = f.size ∧
      (f.click position).particles =
        if f.config.interactive then ((f.spawnWave position).spawnBurst position).particles
        else f.particles := by
  unfold click
  cases f.config.interactive <;> exact ⟨rfl, rfl, rfl⟩

theorem particles_click (f : ParticleField γ) (position : Point) :
    (f.click position).particles = f.particles ++ f.born (.click position) := by
  unfold click born
  cases f.config.interactive with
  | true => rfl
  | false => exact (List.append_nil _).symm

theorem config_operate (f : ParticleField γ) (operation : Operation) :
    (f.operate operation).config = f.config := by
  cases operation with
  | pointerMove position => exact (f.pointerMove_eq position).1
  | click position => exact (f.click_eq position).1
  | pointerLeave => rfl
  | update => rfl
  | resize size => rfl
  | clear => rfl

theorem config_play (f : ParticleField γ) (operations : List Operation) :
    (f.play operations).config = f.config := by
  induction operations generalizing f with
  | nil => rfl
  | cons operation operations ih => exact (ih (f.operate operation)).trans (f.config_operate operation)

theorem config_play_of_create {config : FieldConfig} (valid : config.validate = .ok ()) {size : Size}
    {random : γ} {start : ParticleField γ} (created : create config size random = .ok start)
    (operations : List Operation) : (start.play operations).config = config := by
  rw [config_play, eq_of_create valid created]
  rfl

end AnimatedCanvas.ParticleField
