import AnimatedCanvas.Proofs.Circuit.Choices
import AnimatedCanvas.Proofs.Circuit.Sequence

/-!
# The line that sweeps over a circuit

Whatever is done to a diagram, its gates stay in the order of their times and on its tracks, and the
line stays between zero and the end of the timeline (`swept_within`). While there are no gates there is
no end, and the line moves on freely; new gates bring it back to zero.
-/

namespace AnimatedCanvas

open Check

namespace Binary64

variable {x y : Float}

theorem zero_le_add (hx : 0.0 ≤ x) (hy : 0.0 ≤ y) : 0.0 ≤ x + y := by
  obtain ⟨-, number, nonneg⟩ := le_iff.mp hx
  obtain ⟨-, number', nonneg'⟩ := le_iff.mp hy
  obtain ⟨sum, le, -⟩ := le_add_of_nonneg_numbers number number' nonneg nonneg'
  exact le_iff.mpr ⟨rfl, sum, nonneg.trans le⟩

theorem le_of_not_gt (hx : x.isNaN = false) (hy : y.isNaN = false) (h : ¬ x > y) : x ≤ y :=
  le_iff.mpr ⟨hx, hy, not_lt.mp fun less => h (lt_iff.mpr ⟨hy, hx, less⟩)⟩

end Binary64

open Binary64

namespace CircuitDiagram

inductive Use where
  | operation (operation : Operation)
  | render

def Use.empties (isEmpty : Bool) : Use → Bool
  | .operation .clear => true
  | .operation .regenerate => false
  | .operation (.resize _) => false
  | .operation .advance => isEmpty
  | .render => isEmpty

/-- Whether the gates were cleared after the last time that some were drawn. -/
def isCleared (uses : List Use) : Bool := uses.foldl Use.empties false

section Uses

variable {γ : Type} [Sampler γ]

def use (d : CircuitDiagram γ) : Use → CircuitDiagram γ
  | .operation operation => d.operate operation
  | .render => d

def useAll (d : CircuitDiagram γ) (uses : List Use) : CircuitDiagram γ := uses.foldl use d

end Uses

structure Timely {γ : Type} (d : CircuitDiagram γ) (c : CircuitConfig) (isEmpty : Bool) : Prop where
  config : d.config = c
  length : d.events.length = if isEmpty then 0 else c.gateCount
  order : d.events.Pairwise fun a b => a.time ≤ b.time
  time : ∀ e ∈ d.events, 0.0 ≤ e.time
  placed : ∀ e ∈ d.events, e.IsPlaced c.tracks
  swept : ∀ span ∈ d.timeSpan?, 0.0 ≤ d.sweep ∧ d.sweep ≤ span

section

variable {γ : Type} {d : CircuitDiagram γ} {c : CircuitConfig} {isEmpty : Bool}

theorem zero_le_timeSpan (tail : AtLeastZero d.config.tail) (time : ∀ e ∈ d.events, 0.0 ≤ e.time) :
    ∀ span ∈ d.timeSpan?, 0.0 ≤ span := by
  intro span ends
  obtain ⟨last, final, rfl⟩ := Option.map_eq_some_iff.mp ends
  exact zero_le_add (time last (List.mem_of_getLast? final)) tail.1

theorem Timely.advance (h : d.Timely c isEmpty) (valid : c.Valid) : d.advance.Timely c isEmpty := by
  have tail : AtLeastZero d.config.tail := h.config ▸ valid.tail
  have rate : AtLeastZero d.config.sweepRate := h.config ▸ valid.sweepRate
  unfold CircuitDiagram.advance
  cases ends : d.timeSpan? with
  | none => exact { h with swept := fun _ ends' => nomatch ends.symm.trans ends' }
  | some span =>
      have atLeast := zero_le_timeSpan tail h.time span ends
      have moved := zero_le_add (h.swept span ends).1 rate.1
      refine { h with swept := fun span' ends' => ?_ }
      obtain rfl : span = span' := Option.some.inj (ends.symm.trans ends')
      dsimp only
      split
      next => exact ⟨le_iff.mpr ⟨rfl, rfl, le_rfl⟩, atLeast⟩
      next before => exact ⟨moved, le_of_not_gt (le_iff.mp moved).2.1 (le_iff.mp atLeast).2.1 before⟩

theorem Timely.clear (h : d.Timely c isEmpty) : d.clear.Timely c true where
  config := h.config
  length := rfl
  order := .nil
  time := nofun
  placed := nofun
  swept := nofun

end

section

variable {σ : Type} [WordStream σ] {d : CircuitDiagram σ} {c : CircuitConfig}

theorem timely_of_drawn (valid : c.Valid) (config : d.config = c) (sweep : d.sweep = 0.0) (random : σ)
    (drawn : d.events = (GateEvent.drawFrom c.tracks c c.gateCount 0.0 random).1) :
    d.Timely c false := by
  have time : ∀ e ∈ d.events, 0.0 ≤ e.time := by
    rw [drawn]
    exact fun e member =>
      (GateEvent.isTime_drawFrom valid isTime_zero c.gateCount random e member).2
  constructor
  · exact config
  · rw [drawn]
    exact GateEvent.length_drawFrom c.tracks c c.gateCount 0.0 random
  · rw [drawn]
    exact GateEvent.pairwise_drawFrom valid isTime_zero c.gateCount random
  · exact time
  · rw [drawn]
    exact GateEvent.isPlaced_drawFrom (Nat.pos_of_ne_zero valid.tracks) c c.gateCount 0.0 random
  · intro span ends
    rw [sweep]
    exact ⟨le_iff.mpr ⟨rfl, rfl, le_rfl⟩,
      zero_le_timeSpan (config ▸ valid.tail) time span ends⟩

theorem Timely.regenerate {isEmpty : Bool} (h : d.Timely c isEmpty) (valid : c.Valid) :
    d.regenerate.Timely c false := by
  refine timely_of_drawn valid h.config rfl d.random ?_
  change (GateEvent.generate d.config.tracks d.config d.random).1 = _
  rw [h.config]
  exact GateEvent.generate_eq_drawFrom valid valid.tracks d.random

theorem Timely.use {isEmpty : Bool} (h : d.Timely c isEmpty) (valid : c.Valid) (u : Use) :
    (d.use u).Timely c (u.empties isEmpty) := by
  match u with
  | .render => exact h
  | .operation .advance => exact h.advance valid
  | .operation .regenerate => exact h.regenerate valid
  | .operation .clear => exact h.clear
  | .operation (.resize size) =>
      have fitted : Timely { d with size } c isEmpty :=
        ⟨h.config, h.length, h.order, h.time, h.placed, h.swept⟩
      exact fitted.regenerate valid

theorem Timely.useAll {isEmpty : Bool} (h : d.Timely c isEmpty) (valid : c.Valid) (uses : List Use) :
    (d.useAll uses).Timely c (uses.foldl Use.empties isEmpty) := by
  induction uses generalizing d isEmpty with
  | nil => exact h
  | cons now later ih => exact ih (h.use valid now)

theorem timely_withEvents (valid : c.Valid) (size : Size) (random : σ) :
    (withEvents c size (GateEvent.generate c.tracks c random).1
      (GateEvent.generate c.tracks c random).2).Timely c false := by
  refine timely_of_drawn valid rfl rfl random ?_
  change GateEvent.sort (GateEvent.generate c.tracks c random).1 = _
  rw [GateEvent.generate_eq_drawFrom valid valid.tracks]
  exact GateEvent.sort_drawFrom valid c.gateCount random

/-- A diagram always has its gates in order, in place and as many as it should have; the line is on
the timeline, and at its beginning whenever the gates have changed. -/
theorem swept_within (config : CircuitConfig) (size : Size) (random : σ) (uses : List Use)
    (valid : config.validate = .ok ()) :
    ∃ start, create config size random = .ok start ∧ start.sweep = 0.0 ∧
      let d := start.useAll uses
      d.events.Pairwise (fun a b => a.time ≤ b.time) ∧
      (∀ e ∈ d.events, 0.0 ≤ e.time ∧ e.IsPlaced config.tracks) ∧
      d.events.length = (if isCleared uses then 0 else config.gateCount) ∧
      (d.events ≠ [] → ∃ span, d.timeSpan? = some span ∧ 0.0 ≤ d.sweep ∧ d.sweep ≤ span) ∧
      d.regenerate.sweep = 0.0 ∧ (∀ size, (d.resize size).sweep = 0.0) ∧ d.clear.sweep = 0.0 := by
  refine ⟨_, create_of_valid valid size random, rfl, ?_⟩
  intro d
  have valid := CircuitConfig.validate_eq_ok.mp valid
  have timely : d.Timely config (isCleared uses) := (timely_withEvents valid size random).useAll valid uses
  refine ⟨timely.order, fun e member => ⟨timely.time e member, timely.placed e member⟩,
    timely.length, fun some => ?_, rfl, fun _ => rfl, rfl⟩
  have ends : d.timeSpan? = .some ((d.events.getLast some).time + d.config.tail) := by
    rw [timeSpan?, List.getLast?_eq_some_getLast some, Option.map_some]
  exact ⟨_, ends, timely.swept _ ends⟩

end

theorem swept_within_huge :
    let uses : List Use :=
      [.operation .advance, .render, .operation .clear, .operation .advance,
        .operation (.resize ⟨0.0 / 0.0, 1.0 / 0.0⟩), .operation .advance]
    GateEvent.hugeSteps.validate = .ok () ∧ isCleared uses = false ∧
      ∃ start, create GateEvent.hugeSteps ⟨400.0, 300.0⟩ (Generator.ofSeed 1) = .ok start ∧
        (start.useAll uses).events.length = 4 ∧
        ∃ span, (start.useAll uses).timeSpan? = some span ∧
          0.0 ≤ (start.useAll uses).sweep ∧ (start.useAll uses).sweep ≤ span := by
  intro uses
  have valid : GateEvent.hugeSteps.validate = .ok () := rfl
  obtain ⟨start, created, -, -, -, length, swept, -⟩ :=
    swept_within GateEvent.hugeSteps ⟨400.0, 300.0⟩ (Generator.ofSeed 1) uses valid
  have all : (start.useAll uses).events.length = 4 := length
  have some : (start.useAll uses).events ≠ [] := List.ne_nil_of_length_pos (by rw [all]; decide)
  exact ⟨valid, rfl, start, created, all, swept some⟩

end CircuitDiagram
end AnimatedCanvas
