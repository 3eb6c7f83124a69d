import AnimatedCanvas.Proofs.Circuit.Times
import AnimatedCanvas.Proofs.Random.Watched
import Mathlib.Data.Set.Function

namespace AnimatedCanvas.GateEvent

open AnimatedCanvas.Random

def rawPairs (tracks : Nat) : Set (Nat × Nat) := {raw | raw.1 < tracks ∧ raw.2 < tracks - 1}

def trackPairs (tracks : Nat) : Set (Nat × Nat) :=
  {pair | pair.1 < tracks ∧ pair.2 < tracks ∧ pair.2 ≠ pair.1}

def controlAndTarget (raw : Nat × Nat) : Nat × Nat := (raw.1, targetOf raw.1 raw.2)

def rawOf (control target : Nat) : Nat := if target > control then target - 1 else target

variable {tracks control raw target : Nat}

theorem rawOf_targetOf (control raw : Nat) : rawOf control (targetOf control raw) = raw := by
  unfold rawOf targetOf
  split <;> split <;> omega

theorem targetOf_rawOf (other : target ≠ control) : targetOf control (rawOf control target) = target := by
  unfold rawOf targetOf
  split <;> split <;> omega

theorem targetOf_ne (control raw : Nat) : targetOf control raw ≠ control := by
  unfold targetOf
  split <;> omega

theorem targetOf_lt (h : control < tracks) (draw : raw < tracks - 1) : targetOf control raw < tracks := by
  unfold targetOf
  split <;> omega

theorem rawOf_lt (h : control < tracks) (among : target < tracks) (other : target ≠ control) :
    rawOf control target < tracks - 1 := by
  unfold rawOf
  split <;> omega

theorem bijOn_controlAndTarget (tracks : Nat) :
    Set.BijOn controlAndTarget (rawPairs tracks) (trackPairs tracks) := by
  have inverse : Set.InvOn (fun pair => (pair.1, rawOf pair.1 pair.2)) controlAndTarget
      (rawPairs tracks) (trackPairs tracks) := by
    constructor
    · rintro ⟨control, raw⟩ -
      exact Prod.ext rfl (rawOf_targetOf control raw)
    · rintro ⟨control, target⟩ ⟨-, -, other⟩
      exact Prod.ext rfl (targetOf_rawOf other)
  refine inverse.bijOn ?_ ?_
  · rintro ⟨control, raw⟩ ⟨first, second⟩
    exact ⟨first, targetOf_lt first second, targetOf_ne control raw⟩
  · rintro ⟨control, target⟩ ⟨first, second, other⟩
    exact ⟨first, rawOf_lt first second other⟩

structure IsPlaced (e : GateEvent) (tracks : Nat) : Prop where
  track : e.track < tracks
  target_isSome : e.target.isSome = true ↔ e.kind = .cnot ∨ e.kind = .cz
  target : ∀ target ∈ e.target, target < tracks ∧ target ≠ e.track

theorem IsPlaced.kind_of_one {e : GateEvent} (h : e.IsPlaced 1) : e.kind ≠ .cnot ∧ e.kind ≠ .cz := by
  rw [← not_or, ← h.target_isSome, Option.isSome_iff_exists]
  rintro ⟨target, present⟩
  have track := h.track
  obtain ⟨small, other⟩ := h.target target present
  omega

section

variable {γ : Type} [Sampler γ]

def rawPair (tracks : Nat) (g : γ) : Nat × Nat :=
  let (_, g) := pick GateKind.dual g
  let (track, g) := Sampler.below tracks g
  (track, (Sampler.below (tracks - 1) g).1)

theorem dual_eq (tracks : Nat) (time : Float) (g : γ) : (dual tracks time g).1 =
    { kind := (pick GateKind.dual g).1
      track := (controlAndTarget (rawPair tracks g)).1
      target := some (controlAndTarget (rawPair tracks g)).2
      time } := rfl

variable [Sampler.Lawful γ]

theorem rawPair_mem (several : 1 < tracks) (g : γ) : rawPair tracks g ∈ rawPairs tracks :=
  ⟨Sampler.Lawful.below_lt (Nat.zero_lt_of_lt several) _,
    Sampler.Lawful.below_lt (Nat.sub_pos_of_lt several) _⟩

theorem isPlaced_dual (several : 1 < tracks) (time : Float) (g : γ) :
    (dual tracks time g).1.IsPlaced tracks := by
  have kinds : ∀ kind ∈ GateKind.dual, kind = .cnot ∨ kind = .cz := by decide
  obtain ⟨track, target, other⟩ := (bijOn_controlAndTarget tracks).mapsTo (rawPair_mem several g)
  rw [dual_eq]
  refine ⟨track, iff_of_true rfl (kinds _ (pick_mem (by decide) g)), ?_⟩
  rintro _ ⟨⟩
  exact ⟨target, other⟩

theorem isPlaced_single (some : 0 < tracks) (time : Float) (g : γ) :
    (single tracks time g).1.IsPlaced tracks := by
  have kinds : ∀ kind ∈ GateKind.single, ¬ (kind = .cnot ∨ kind = .cz) := by decide
  refine ⟨Sampler.Lawful.below_lt some _, iff_of_false Bool.false_ne_true ?_, fun _ => nofun⟩
  exact kinds _ (pick_mem (by decide) g)

theorem isPlaced_draw (some : 0 < tracks) (dualChance time : Float) (g : γ) :
    (draw tracks dualChance time g).1.IsPlaced tracks := by
  unfold draw
  split
  next several =>
    dsimp only
    split
    · exact isPlaced_dual several time _
    · exact isPlaced_single some time _
  next => exact isPlaced_single some time g

theorem isPlaced_drawFrom (some : 0 < tracks) (c : CircuitConfig) (n : Nat) (time : Float) (g : γ) :
    ∀ e ∈ (drawFrom tracks c n time g).1, e.IsPlaced tracks := by
  induction n generalizing time g with
  | zero => exact fun _ member => nomatch member
  | succ n ih => exact List.forall_mem_cons.mpr ⟨isPlaced_draw some c.dualChance time g, ih _ _⟩

end

variable {σ : Type} [WordStream σ] {c : CircuitConfig}

/-- A sequence for a valid configuration: none of it without tracks, else all gates as they were drawn,
from zero on, with times that do not fall, and each of them placed on the tracks. -/
theorem generate_wellFormed (valid : c.validate = .ok ()) (tracks : Nat) (random : σ) :
    let events := (generate tracks c random).1
    (tracks = 0 → events = []) ∧
      (tracks ≠ 0 → events.length = c.gateCount ∧
        events = (drawFrom tracks c c.gateCount 0.0 random).1) ∧
      (∀ first ∈ events.head?, first.time = 0.0) ∧
      events.Pairwise (fun a b => a.time ≤ b.time) ∧
      (∀ e ∈ events, e.IsPlaced tracks) ∧
      (tracks = 1 → ∀ e ∈ events, e.kind ≠ .cnot ∧ e.kind ≠ .cz) ∧
      (∀ (time : Float) (g : σ), 1 < tracks → rawPair tracks g ∈ rawPairs tracks ∧
        ((dual tracks time g).1.track, (dual tracks time g).1.target) =
          ((controlAndTarget (rawPair tracks g)).1, some (controlAndTarget (rawPair tracks g)).2)) ∧
      Set.BijOn controlAndTarget (rawPairs tracks) (trackPairs tracks) := by
  intro events
  have valid := CircuitConfig.validate_eq_ok.mp valid
  have raw (time : Float) (g : σ) (several : 1 < tracks) : rawPair tracks g ∈ rawPairs tracks ∧
      ((dual tracks time g).1.track, (dual tracks time g).1.target) =
        ((controlAndTarget (rawPair tracks g)).1, some (controlAndTarget (rawPair tracks g)).2) :=
    ⟨rawPair_mem several g, by rw [dual_eq]⟩
  by_cases none : tracks = 0
  · have empty : events = [] := congrArg Prod.fst (if_pos none)
    rw [empty]
    exact ⟨fun _ => rfl, fun some => absurd none some, nofun, .nil, nofun, fun _ => nofun, raw,
      bijOn_controlAndTarget tracks⟩
  · have drawn : events = (drawFrom tracks c c.gateCount 0.0 random).1 :=
      generate_eq_drawFrom valid none random
    rw [drawn]
    have placed := isPlaced_drawFrom (Nat.pos_of_ne_zero none) c c.gateCount 0.0 random
    refine ⟨fun zero => absurd zero none, fun _ => ⟨length_drawFrom _ _ _ _ _, rfl⟩,
      time_head_drawFrom valid _ _ _, pairwise_drawFrom valid isTime_zero _ _, placed, ?_, raw,
      bijOn_controlAndTarget tracks⟩
    rintro rfl e member
    exact (placed e member).kind_of_one

theorem generate_wellFormed_pair :
    ({ gateCount := 6, dualChance := 1.0 } : CircuitConfig).validate = .ok () ∧
      let events := (generate 2 { gateCount := 6, dualChance := 1.0 } (Generator.ofSeed 3)).1
      events.length = 6 ∧ ∀ e ∈ events, e.IsPlaced 2 := by
  have valid : ({ gateCount := 6, dualChance := 1.0 } : CircuitConfig).validate = .ok () := rfl
  obtain ⟨-, some, -, -, placed, -⟩ := generate_wellFormed valid 2 (Generator.ofSeed 3)
  exact ⟨valid, (some two_ne_zero).1, placed⟩

end AnimatedCanvas.GateEvent
