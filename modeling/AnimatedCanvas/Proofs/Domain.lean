import AnimatedCanvas.Proofs.Memory
import AnimatedCanvas.Proofs.Wave
import AnimatedCanvas.Random.Generator

/-!
# Where scenes can panic

A valid configuration leads to sound choices and to clamping between ordered bounds only, whatever the
sizes, the points and the random words are. Memory is not among what is checked: a field of particles, a
trail and a sequence of gates are reserved at once, and where one of them is too large, the scene panics
(`boundless_counts_panic`). `scenes_within_domain` says of every run whether it comes to that.
-/

namespace AnimatedCanvas

open Binary64

def clampTo? (lo hi x : Float) : Option Float := if lo ≤ hi then some (clampTo lo hi x) else none

theorem clampTo?_unit (x : Float) : clampTo? 0.0 1.0 x = some (clampTo 0.0 1.0 x) :=
  if_pos (le_iff.mpr ⟨rfl, rfl, by simp⟩)

theorem clampTo?_nonnegative (extent x : Float) :
    clampTo? 0.0 (nonnegative extent) x = some (clampTo 0.0 (nonnegative extent) x) :=
  if_pos (zero_le_nonnegative extent)

def Color.withAlpha? (c : Color) (alpha : Float) : Option Color := do
  return { c with alpha := ← clampTo? 0.0 1.0 alpha }

theorem Color.withAlpha?_eq (c : Color) (alpha : Float) :
    c.withAlpha? alpha = some (c.withAlpha alpha) := by
  rw [withAlpha?, clampTo?_unit]
  rfl

def Wave.start? (center : Point) (maxRadius speed opacity fade : Float) (color : Color) :
    Option Wave := do
  return {
    center, radius := 0.0, maxRadius, speed, opacity := ← clampTo? 0.0 1.0 opacity, fade, color }

theorem Wave.start?_eq (center : Point) (maxRadius speed opacity fade : Float) (color : Color) :
    start? center maxRadius speed opacity fade color =
      some (start center maxRadius speed opacity fade color) := by
  rw [start?, clampTo?_unit]
  rfl

namespace Particle

def bounce? (extent coordinate speed : Float) : Option (Float × Float) := do
  if isOut extent coordinate then
    return (← clampTo? 0.0 (nonnegative extent) coordinate, -speed)
  else return (coordinate, speed)

theorem bounce?_eq (extent coordinate speed : Float) :
    bounce? extent coordinate speed = some (bounce extent coordinate speed) := by
  unfold bounce? bounce
  split
  · rw [clampTo?_nonnegative]
    rfl
  · rfl

def reflect? (p : Particle) (bounds : Size) : Option Particle := do
  let (x, speedX) ← bounce? bounds.width p.x p.speedX
  let (y, speedY) ← bounce? bounds.height p.y p.speedY
  return { p with x, y, speedX, speedY }

theorem reflect?_eq (p : Particle) (bounds : Size) : p.reflect? bounds = some (p.reflect bounds) := by
  rw [reflect?, bounce?_eq, bounce?_eq]
  rfl

end Particle

/-- Watching changes nothing, and all choices that are seen are sound; wherever there is clamping, the
bounds are in order; and a run with reservations is the run without them, unless one of them is too
large. -/
theorem scenes_within_domain {σ : Type} [WordStream σ] [Trigonometry] (random : σ) (size : Size) :
    (∀ (config : FieldConfig) (calls : List ParticleField.Call), config.validate = .ok () →
      ∃ watched plain, ParticleField.create config size (Watched.start random) = .ok watched ∧
        ParticleField.create config size random = .ok plain ∧
        (watched.callAll calls).unwatched = plain.callAll calls ∧
        (∀ choice ∈ (watched.callAll calls).random.choices, choice.IsSound) ∧
        ParticleField.create? config size random =
          (if ParticleField.HoldsField config then some (.ok plain) else none) ∧
        plain.callAll? calls =
          if ∀ call ∈ calls, ParticleField.HoldsTrails config (call.trails config) then
            some (plain.callAll calls)
          else none) ∧
    (∀ (config : CircuitConfig) (operations : List CircuitDiagram.Operation),
      config.validate = .ok () →
      ∃ watched plain, CircuitDiagram.create config size (Watched.start random) = .ok watched ∧
        CircuitDiagram.create config size random = .ok plain ∧
        (watched.operateAll operations).unwatched = plain.operateAll operations ∧
        (∀ choice ∈ (watched.operateAll operations).random.choices, choice.IsSound) ∧
        CircuitDiagram.create? config size random =
          (if CircuitDiagram.HoldsGates config then some (.ok plain) else none) ∧
        plain.operateAll? operations =
          if ∀ operation ∈ operations, operation.draws → CircuitDiagram.HoldsGates config then
            some (plain.operateAll operations)
          else none) ∧
    (∀ (config : CircuitConfig) (tracks : Nat), config.validate = .ok () →
      let (events, watched) := GateEvent.generate tracks config (Watched.start random)
      (events, watched.source) = GateEvent.generate tracks config random ∧
        (∀ choice ∈ watched.choices, choice.IsSound) ∧
        GateEvent.generate? tracks config random =
          if CircuitDiagram.HoldsGates config then some (GateEvent.generate tracks config random)
          else none) ∧
    (∀ (p : Particle) (bounds : Size), p.reflect? bounds = some (p.reflect bounds)) ∧
    (∀ (center : Point) (maxRadius speed opacity fade : Float) (color : Color),
      Wave.start? center maxRadius speed opacity fade color =
        some (Wave.start center maxRadius speed opacity fade color)) ∧
    ∀ (color : Color) (alpha : Float), color.withAlpha? alpha = some (color.withAlpha alpha) := by
  refine ⟨fun config calls valid => ?_, fun config operations valid => ?_,
    fun config tracks valid => ?_, Particle.reflect?_eq, Wave.start?_eq, Color.withAlpha?_eq⟩
  · obtain ⟨watched, plain, created, same, follows⟩ := ParticleField.exists_create valid size random
    have reached := follows.callAll calls
    have settings : plain.config = config := ParticleField.config_play_of_create valid same []
    refine ⟨watched, plain, created, same, reached.same, reached.sound, ?_, ?_⟩
    · rw [ParticleField.create?_of_valid valid, same]
    · rw [ParticleField.callAll?_eq, settings]
  · obtain ⟨watched, plain, created, same, follows⟩ := CircuitDiagram.exists_create valid size random
    have reached := follows.operateAll operations
    have settings : plain.config = config := by
      rw [CircuitDiagram.create_of_valid valid] at same
      rw [← Except.ok.inj same]
      rfl
    refine ⟨watched, plain, created, same, reached.same, reached.sound, ?_, ?_⟩
    · rw [CircuitDiagram.create?_of_valid valid, same]
    · rw [CircuitDiagram.operateAll?_eq, settings]
  · have drawn : Agrees (GateEvent.generate tracks config (Watched.start random))
        (GateEvent.generate tracks config random) :=
      GateEvent.watches_generate (CircuitConfig.validate_eq_ok.mp valid) tracks _
        (Watched.isSound_start random)
    exact ⟨Prod.ext drawn.value drawn.source, drawn.sound,
      CircuitDiagram.generate?_eq tracks config random⟩

theorem scenes_within_domain_presets :
    let calls : List ParticleField.Call :=
      [.operation (.pointerMove ⟨0.0 / 0.0, 5.0⟩), .operation (.click ⟨-5.0, 1.0e300⟩), .populate,
        .spawnWave ⟨1.0, 2.0⟩, .spawnBurst ⟨1.0, 2.0⟩, .operation (.resize ⟨80.0, 1.0 / 0.0⟩),
        .operation .update]
    let operations : List CircuitDiagram.Operation := [.advance, .resize ⟨80.0, 60.0⟩, .regenerate]
    FieldConfig.quantum.validate = .ok () ∧ ({} : CircuitConfig).validate = .ok () ∧
      (∃ watched plain,
        ParticleField.create .quantum ⟨0.0 / 0.0, -1.0⟩ (Watched.start (⟨1, 2, 3, 4⟩ : Generator)) =
          .ok watched ∧
        (∀ choice ∈ (watched.callAll calls).random.choices, choice.IsSound) ∧
        ParticleField.create? .quantum ⟨0.0 / 0.0, -1.0⟩ (⟨1, 2, 3, 4⟩ : Generator) =
          some (.ok plain) ∧
        plain.callAll? calls = some (watched.callAll calls).unwatched) ∧
      ∃ watched plain,
        CircuitDiagram.create {} ⟨0.0 / 0.0, -1.0⟩ (Watched.start (⟨1, 2, 3, 4⟩ : Generator)) =
          .ok watched ∧
        (∀ choice ∈ (watched.operateAll operations).random.choices, choice.IsSound) ∧
        CircuitDiagram.create? {} ⟨0.0 / 0.0, -1.0⟩ (⟨1, 2, 3, 4⟩ : Generator) = some (.ok plain) ∧
        plain.operateAll? operations = some (watched.operateAll operations).unwatched := by
  intro calls operations
  have field : FieldConfig.quantum.validate = .ok () := rfl
  have circuit : ({} : CircuitConfig).validate = .ok () := rfl
  obtain ⟨fields, circuits, -⟩ :=
    scenes_within_domain (⟨1, 2, 3, 4⟩ : Generator) ⟨0.0 / 0.0, -1.0⟩
  refine ⟨field, circuit, ?_, ?_⟩
  · obtain ⟨watched, plain, created, -, same, sound, reserved, run⟩ := fields .quantum calls field
    have room : ∀ call ∈ calls, ParticleField.HoldsTrails .quantum (call.trails .quantum) := by decide
    rw [if_pos (by decide)] at reserved
    rw [if_pos room, ← same] at run
    exact ⟨watched, plain, created, sound, reserved, run⟩
  · obtain ⟨watched, plain, created, -, same, sound, reserved, run⟩ := circuits {} operations circuit
    have room : CircuitDiagram.HoldsGates {} := by decide
    rw [if_pos room] at reserved
    rw [if_pos fun _ _ _ => room, ← same] at run
    exact ⟨watched, plain, created, sound, reserved, run⟩

def endlessTrails : FieldConfig :=
  { targetCount := 1, speed := ⟨0.0, 0.0⟩, trail := { cap := 18446744073709551615 } }

def endlessCrowd : FieldConfig := { targetCount := 18446744073709551615, burst := { count := 0 } }

def endlessSequence : CircuitConfig := { gateCount := 18446744073709551615 }

/-- The checks let every count pass, those included that no memory holds. -/
theorem boundless_counts_panic :
    endlessTrails.validate = .ok () ∧
      ParticleField.create? endlessTrails ⟨100.0, 100.0⟩ (Generator.ofSeed 1) = none ∧
      endlessCrowd.validate = .ok () ∧
      ParticleField.create? endlessCrowd ⟨100.0, 100.0⟩ (Generator.ofSeed 1) = none ∧
      endlessSequence.validate = .ok () ∧
      CircuitDiagram.create? endlessSequence ⟨100.0, 100.0⟩ (Generator.ofSeed 1) = none := by
  have trails : endlessTrails.validate = .ok () := rfl
  have crowd : endlessCrowd.validate = .ok () := rfl
  have sequence : endlessSequence.validate = .ok () := rfl
  refine ⟨trails, ?_, crowd, ?_, sequence, ?_⟩
  · rw [ParticleField.create?_of_valid trails]
    exact if_neg (by decide)
  · rw [ParticleField.create?_of_valid crowd]
    exact if_neg (by decide)
  · rw [CircuitDiagram.create?_of_valid sequence]
    exact if_neg (by decide)

end AnimatedCanvas
