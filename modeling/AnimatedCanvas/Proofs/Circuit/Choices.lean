import AnimatedCanvas.Circuit
import AnimatedCanvas.Proofs.Config.Circuit
import AnimatedCanvas.Proofs.Random.Watched

namespace AnimatedCanvas

open AnimatedCanvas.Random

variable {γ : Type} [Sampler γ] [Sampler.Lawful γ]

namespace GateEvent

theorem watches_dual {tracks : Nat} (several : 1 < tracks) (time : Float) :
    Watches (dual tracks time) (dual tracks time : γ → GateEvent × γ) := by
  intro w sound
  have kind := watches_pick (by decide : GateKind.dual ≠ []) w sound
  have track := kind.next (watches_below (Nat.zero_lt_of_lt several))
  have target := track.next (watches_below (Nat.sub_pos_of_lt several))
  refine ⟨?_, target.source, target.sound⟩
  simp only [dual, kind.value, track.value, target.value]

theorem watches_single {tracks : Nat} (some : 0 < tracks) (time : Float) :
    Watches (single tracks time) (single tracks time : γ → GateEvent × γ) := by
  intro w sound
  have kind := watches_pick (by decide : GateKind.single ≠ []) w sound
  have track := kind.next (watches_below some)
  refine ⟨?_, track.source, track.sound⟩
  simp only [single, kind.value, track.value]

theorem watches_draw {tracks : Nat} (some : 0 < tracks) {dualChance : Float}
    (unit : Check.InUnit dualChance) (time : Float) :
    Watches (draw tracks dualChance time) (draw tracks dualChance time : γ → GateEvent × γ) := by
  intro w sound
  unfold draw
  split
  next several =>
    have isDual := watches_chance unit w sound
    have dual := isDual.next (watches_dual several time)
    have single := isDual.next (watches_single some time)
    dsimp only
    rw [isDual.value]
    split
    · exact dual
    · exact single
  next => exact watches_single some time w sound

variable {c : CircuitConfig}

theorem watches_drawFrom {tracks : Nat} (some : 0 < tracks) (valid : c.Valid) (n : Nat) (time : Float) :
    Watches (drawFrom tracks c n time) (drawFrom tracks c n time : γ → List GateEvent × γ) := by
  induction n generalizing time with
  | zero => exact fun _ sound => ⟨rfl, rfl, sound⟩
  | succ n ih =>
      intro w sound
      have event := watches_draw some valid.dualChance time w sound
      have step := event.next (watches_sample valid.timeStep.1)
      -- The time of the later gates is drawn as well.
      have others := step.next (ih (time + (c.timeStep.sample (draw tracks c.dualChance time w).2).1))
      rw [drawFrom, drawFrom]
      dsimp only
      rw [← step.value, event.value]
      exact ⟨by rw [others.value], others.source, others.sound⟩

theorem watches_generate (valid : c.Valid) (tracks : Nat) :
    Watches (generate tracks c) (generate tracks c : γ → List GateEvent × γ) := by
  intro w sound
  unfold generate
  split
  next => exact ⟨rfl, rfl, sound⟩
  next some =>
    have events := watches_drawFrom (Nat.pos_of_ne_zero some) valid c.gateCount 0.0 w sound
    exact ⟨by simp only [events.value], events.source, events.sound⟩

end GateEvent

namespace CircuitDiagram

open GateEvent

inductive Operation where
  | advance
  | regenerate
  | resize (size : Size)
  | clear

section Operations

variable {γ : Type} [Sampler γ]

def operate (d : CircuitDiagram γ) : Operation → CircuitDiagram γ
  | .advance => d.advance
  | .regenerate => d.regenerate
  | .resize size => d.resize size
  | .clear => d.clear

def operateAll (d : CircuitDiagram γ) (operations : List Operation) : CircuitDiagram γ :=
  operations.foldl operate d

end Operations

def unwatched (d : CircuitDiagram (Watched γ)) : CircuitDiagram γ :=
  { d with random := d.random.source }

structure Follows (d : CircuitDiagram (Watched γ)) (plain : CircuitDiagram γ) : Prop where
  same : d.unwatched = plain
  valid : d.config.Valid
  sound : d.random.IsSound

variable {d : CircuitDiagram (Watched γ)} {plain : CircuitDiagram γ}

theorem Follows.regenerate (h : d.Follows plain) : d.regenerate.Follows plain.regenerate := by
  have drawn := watches_generate h.valid d.config.tracks d.random h.sound
  obtain rfl := h.same
  refine ⟨?_, h.valid, drawn.sound⟩
  simp only [CircuitDiagram.regenerate, unwatched, drawn.value, drawn.source]

omit [Sampler γ] [Sampler.Lawful γ] in
theorem Follows.advance (h : d.Follows plain) : d.advance.Follows plain.advance := by
  obtain rfl := h.same
  have timeSpan? : d.unwatched.timeSpan? = d.timeSpan? := rfl
  simp only [CircuitDiagram.advance, timeSpan?]
  cases d.timeSpan? with
  | none => exact ⟨rfl, h.valid, h.sound⟩
  | some span => exact ⟨rfl, h.valid, h.sound⟩

theorem Follows.operate (h : d.Follows plain) (operation : Operation) :
    (d.operate operation).Follows (plain.operate operation) := by
  cases operation with
  | advance => exact h.advance
  | regenerate => exact h.regenerate
  | resize size =>
      have fitted : Follows { d with size } { plain with size } :=
        ⟨by rw [← h.same]; rfl, h.valid, h.sound⟩
      exact fitted.regenerate
  | clear => exact ⟨by rw [← h.same]; rfl, h.valid, h.sound⟩

theorem Follows.operateAll (h : d.Follows plain) (operations : List Operation) :
    (d.operateAll operations).Follows (plain.operateAll operations) := by
  induction operations generalizing d plain with
  | nil => exact h
  | cons operation operations ih => exact ih (h.operate operation)

omit [Sampler.Lawful γ] in
theorem create_of_valid {config : CircuitConfig} (valid : config.validate = .ok ()) (size : Size)
    (random : γ) : create config size random = .ok (withEvents config size
      (generate config.tracks config random).1 (generate config.tracks config random).2) := by
  rw [create, valid]
  rfl

theorem exists_create {config : CircuitConfig} (valid : config.validate = .ok ()) (size : Size)
    (random : γ) : ∃ watched plain, create config size (Watched.start random) = .ok watched ∧
      create config size random = .ok plain ∧ watched.Follows plain := by
  have checked := CircuitConfig.validate_eq_ok.mp valid
  have drawn : Agrees (generate config.tracks config (Watched.start random))
      (generate config.tracks config random) :=
    watches_generate checked config.tracks _ (Watched.isSound_start random)
  refine ⟨_, _, create_of_valid valid size _, create_of_valid valid size random,
    ⟨?_, checked, drawn.sound⟩⟩
  simp only [withEvents, unwatched, drawn.value, drawn.source]

end CircuitDiagram
end AnimatedCanvas
