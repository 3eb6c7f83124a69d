import AnimatedCanvas.Proofs.Field.Ledger
import AnimatedCanvas.Proofs.Random

/-!
# Chance does not know the time

What a field draws depends on what is asked of it and on nothing else: on the moves, clicks and new
surfaces, in their order. When frames pass, whether anything is drawn on the screen, and where the
pointer is make no difference to any answer, to any wave or particle but for its place, or to the state
of the source (`chance_of_demands`).
-/

namespace AnimatedCanvas

def Wave.unplaced (w : Wave) : Wave := { w with center := .origin }

def Particle.unplaced (p : Particle) : Particle := { p with x := 0.0, y := 0.0 }

theorem Random.map_drawEach {α β γ δ : Type} {view : α → δ} {draw other : β → γ → α × γ}
    (value : ∀ b g, view (draw b g).1 = view (other b g).1)
    (source : ∀ b g, (draw b g).2 = (other b g).2) (items : List β) (g : γ) :
    (drawEach draw items g).1.map view = (drawEach other items g).1.map view ∧
      (drawEach draw items g).2 = (drawEach other items g).2 := by
  induction items generalizing g with
  | nil => exact ⟨rfl, rfl⟩
  | cons b items ih =>
      obtain ⟨values, last⟩ := ih (draw b g).2
      simp only [drawEach, List.map_cons, value b g]
      rw [← source b g]
      exact ⟨congrArg _ values, last⟩

namespace ParticleField

inductive Use where
  | operation (operation : Operation)
  | render

inductive Demand where
  | move
  | click
  | surface (fitted : Size)

def Use.demand? : Use → Option Demand
  | .operation (.pointerMove _) => some .move
  | .operation (.click _) => some .click
  | .operation (.resize size) => some (.surface size.clamped)
  | _ => none

def Demand.use : Demand → Use
  | .move => .operation (.pointerMove .origin)
  | .click => .operation (.click .origin)
  | .surface fitted => .operation (.resize fitted)

section Uses

variable {γ α : Type} [Sampler γ] [Trigonometry]

def use (f : ParticleField γ) : Use → ParticleField γ
  | .operation operation => f.operate operation
  | .render => f

def useAll (f : ParticleField γ) (uses : List Use) : ParticleField γ := uses.foldl use f

def along (view : ParticleField γ → Use → List α) (f : ParticleField γ) : List Use → List α
  | [] => []
  | now :: later => view f now ++ along view (f.use now) later

def answers (f : ParticleField γ) : Use → List Bool
  | .operation (.pointerMove position) => [(f.pointerMove position).1]
  | _ => []

def newWaves (f : ParticleField γ) : Use → List Wave
  | .operation operation => (f.spawned operation).map Wave.unplaced
  | .render => []

/-- A burst starts in the place of the click, which is left out; new particles at rest have their places
from chance. -/
def newParticles (f : ParticleField γ) : Use → List Particle
  | .operation (.click position) => (f.born (.click position)).map Particle.unplaced
  | .operation operation => f.born operation
  | .render => []

structure Alike (f g : ParticleField γ) : Prop where
  config : f.config = g.config
  size : f.size = g.size
  random : f.random = g.random

/-- Two uses of two fields that get the same from chance. -/
structure Meets (f g : ParticleField γ) (u v : Use) : Prop where
  alike : (f.use u).Alike (g.use v)
  answers : f.answers u = g.answers v
  waves : f.newWaves u = g.newWaves v
  particles : f.newParticles u = g.newParticles v

variable {f g : ParticleField γ}

omit [Trigonometry] in
theorem Alike.spawnWave (h : f.Alike g) (here there : Point) :
    (f.spawnWave here).Alike (g.spawnWave there) := by
  refine ⟨h.config, h.size, ?_⟩
  change (newWave f.config.waves here f.random).2 = (newWave g.config.waves here g.random).2
  rw [h.config, h.random]

omit [Sampler γ] [Trigonometry] in
theorem clamped_clamped (size : Size) : size.clamped.clamped = size.clamped := by
  have side (x : Float) : Size.side (Size.side x) = Size.side x := by
    unfold Size.side nonnegative
    split
    · split
      next positive => simp [*]
      next => rfl
    · rfl
  simp only [Size.clamped, side]

theorem drawn_burst (c : FieldConfig) (here there : Point) (indices : List Nat) (random : γ) :
    (Random.drawEach (burstParticle c here) indices random).1.map Particle.unplaced =
        (Random.drawEach (burstParticle c there) indices random).1.map Particle.unplaced ∧
      (Random.drawEach (burstParticle c here) indices random).2 =
        (Random.drawEach (burstParticle c there) indices random).2 := by
  apply Random.map_drawEach <;> exact fun _ _ => rfl

theorem Alike.spawnBurst (h : f.Alike g) (here there : Point) :
    (f.spawnBurst here).Alike (g.spawnBurst there) := by
  have drawn := (drawn_burst g.config here there (List.range g.config.burst.count) g.random).2
  rw [← h.config, ← h.random] at drawn
  refine ⟨h.config, h.size, drawn.trans ?_⟩
  rw [h.config, h.random]
  rfl

omit [Trigonometry] in
theorem Alike.pointerMove (h : f.Alike g) (here there : Point) :
    (f.pointerMove here).1 = (g.pointerMove there).1 ∧
      (f.pointerMove here).2.Alike (g.pointerMove there).2 := by
  unfold ParticleField.pointerMove
  rw [h.config, h.random]
  split
  · exact ⟨rfl, h⟩
  · dsimp only
    have moved : Alike
        { f with
          config := g.config, pointer := some here
          random := (Sampler.chance g.config.waves.chance g.random).2 }
        { g with
          pointer := some there, random := (Sampler.chance g.config.waves.chance g.random).2 } :=
      ⟨rfl, h.size, rfl⟩
    have waved := moved.spawnWave here there
    split
    · exact ⟨rfl, waved⟩
    · exact ⟨rfl, moved⟩

theorem Alike.move (h : f.Alike g) (here there : Point) :
    Meets f g (.operation (.pointerMove here)) (.operation (.pointerMove there)) := by
  obtain ⟨answer, alike⟩ := h.pointerMove here there
  refine ⟨alike, congrArg (List.cons · []) answer, ?_, rfl⟩
  simp only [newWaves, spawned, answer, h.config, h.random]
  split <;> rfl

theorem Alike.click (h : f.Alike g) (here there : Point) :
    Meets f g (.operation (.click here)) (.operation (.click there)) := by
  refine ⟨?_, rfl, ?_, ?_⟩
  · have clicked := (h.spawnWave here there).spawnBurst here there
    simp only [use, operate, ParticleField.click, h.config]
    split
    · exact h
    · exact clicked
  · simp only [newWaves, spawned, h.config, h.random]
    split <;> rfl
  · simp only [newParticles, born, h.config, h.random]
    split
    · exact (drawn_burst g.config here there _ _).1
    · rfl

theorem Alike.resize (h : f.Alike g) {size other : Size} (fitted : size.clamped = other.clamped) :
    Meets f g (.operation (.resize size)) (.operation (.resize other)) := by
  have drawn : Random.drawMany (restingParticle f.config size.clamped) f.config.targetCount f.random =
      Random.drawMany (restingParticle g.config other.clamped) g.config.targetCount g.random := by
    rw [h.config, h.random, fitted]
  exact ⟨⟨h.config, fitted, congrArg Prod.snd drawn⟩, rfl, rfl, congrArg Prod.fst drawn⟩

theorem Alike.quiet (h : f.Alike g) {u : Use} (quiet : u.demand? = none) :
    (f.use u).Alike g ∧ f.answers u = [] ∧ f.newWaves u = [] ∧ f.newParticles u = [] := by
  match u with
  | .render => exact ⟨h, rfl, rfl, rfl⟩
  | .operation .pointerLeave => exact ⟨⟨h.config, h.size, h.random⟩, rfl, rfl, rfl⟩
  | .operation .update => exact ⟨⟨h.config, h.size, h.random⟩, rfl, rfl, rfl⟩
  | .operation .clear => exact ⟨⟨h.config, h.size, h.random⟩, rfl, rfl, rfl⟩

theorem Alike.demanding (h : f.Alike g) {u : Use} {d : Demand} (demanding : u.demand? = some d) :
    Meets f g u d.use := by
  match u with
  | .operation (.pointerMove position) =>
      obtain rfl := Option.some.inj demanding
      exact h.move position .origin
  | .operation (.click position) =>
      obtain rfl := Option.some.inj demanding
      exact h.click position .origin
  | .operation (.resize size) =>
      obtain rfl := Option.some.inj demanding
      exact h.resize (clamped_clamped size).symm

structure Same (f g : ParticleField γ) (first second : List Use) : Prop where
  random : (f.useAll first).random = (g.useAll second).random
  answers : f.along answers first = g.along answers second
  waves : f.along newWaves first = g.along newWaves second
  particles : f.along newParticles first = g.along newParticles second

theorem Alike.demands (h : f.Alike g) (uses : List Use) :
    Same f g uses ((uses.filterMap Use.demand?).map Demand.use) := by
  induction uses generalizing f g with
  | nil => exact ⟨h.random, rfl, rfl, rfl⟩
  | cons now later ih =>
      cases demand : now.demand? with
      | none =>
          obtain ⟨alike, answers, waves, particles⟩ := h.quiet demand
          have same := ih alike
          rw [List.filterMap_cons_none demand]
          constructor
          · exact same.random
          · rw [along, answers, List.nil_append, same.answers]
          · rw [along, waves, List.nil_append, same.waves]
          · rw [along, particles, List.nil_append, same.particles]
      | some d =>
          have meets := h.demanding demand
          have same := ih meets.alike
          rw [List.filterMap_cons_some demand, List.map_cons]
          constructor
          · exact same.random
          · rw [along, along, meets.answers, same.answers]
          · rw [along, along, meets.waves, same.waves]
          · rw [along, along, meets.particles, same.particles]

/-- Runs with the same demands get the same from chance, whatever they do in between and wherever
they do it. What counts as new is what an operation adds to the field. -/
theorem chance_of_demands (config : FieldConfig) (size : Size) (random : γ) (first second : List Use)
    (valid : config.validate = .ok ())
    (same : first.filterMap Use.demand? = second.filterMap Use.demand?) :
    (∃ start, create config size random = .ok start ∧
      (start.useAll first).random = (start.useAll second).random ∧
      start.along answers first = start.along answers second ∧
      start.along newWaves first = start.along newWaves second ∧
      start.along newParticles first = start.along newParticles second) ∧
    ∀ f : ParticleField γ,
      (∀ position, (f.pointerMove position).2.waves = f.waves ++ f.spawned (.pointerMove position)) ∧
      (∀ position, (f.click position).waves = f.waves ++ f.spawned (.click position) ∧
        (f.click position).particles = f.particles ++ f.born (.click position)) ∧
      ∀ size, (f.resize size).particles = f.born (.resize size) := by
  constructor
  · obtain ⟨start, created⟩ : ∃ start, create config size random = .ok start :=
      ⟨_, create_of_valid valid size random⟩
    refine ⟨start, created, ?_⟩
    have alike : start.Alike start := ⟨rfl, rfl, rfl⟩
    have one := alike.demands first
    have other := alike.demands second
    rw [← same] at other
    exact ⟨one.random.trans other.random.symm, one.answers.trans other.answers.symm,
      one.waves.trans other.waves.symm, one.particles.trans other.particles.symm⟩
  · intro f
    have waves (operation : Operation) (still : operation ≠ .update) (kept : operation ≠ .clear) :
        (f.operate operation).waves = f.waves ++ f.spawned operation := waves_operate still kept
    refine ⟨fun position => ?_, fun position => ⟨?_, f.particles_click position⟩, fun _ => rfl⟩
    · exact waves (.pointerMove position) nofun nofun
    · exact waves (.click position) nofun nofun

end Uses

theorem chance_of_demands_quantum :
    let first : List Use :=
      [.operation (.pointerMove ⟨10.0, 20.0⟩), .operation (.click ⟨10.0, 20.0⟩),
        .operation (.resize ⟨80.0, 60.0⟩)]
    let second : List Use :=
      [.operation .update, .operation (.pointerMove ⟨0.0 / 0.0, -5.0⟩), .render,
        .operation (.click ⟨30.0, 1.0e300⟩), .operation .pointerLeave, .operation .update,
        .operation (.resize ⟨80.0, 60.0⟩)]
    FieldConfig.quantum.validate = .ok () ∧
      first.filterMap Use.demand? = second.filterMap Use.demand? ∧
      ∃ start, create .quantum ⟨400.0, 300.0⟩ (⟨1, 2, 3, 4⟩ : Generator) = .ok start ∧
        (start.useAll first).random = (start.useAll second).random ∧
        start.along answers first = start.along answers second ∧
        start.along newWaves first = start.along newWaves second ∧
        start.along newParticles first = start.along newParticles second := by
  intro first second
  have valid : FieldConfig.quantum.validate = .ok () := rfl
  have same : first.filterMap Use.demand? = second.filterMap Use.demand? := rfl
  exact ⟨valid, same, (chance_of_demands .quantum ⟨400.0, 300.0⟩ (⟨1, 2, 3, 4⟩ : Generator) first second
    valid same).1⟩

end ParticleField
end AnimatedCanvas
