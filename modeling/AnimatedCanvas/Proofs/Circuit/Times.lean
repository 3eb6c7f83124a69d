import AnimatedCanvas.Circuit.Sequence
import AnimatedCanvas.Proofs.Binary64.Bits
import AnimatedCanvas.Proofs.Binary64.Chains
import AnimatedCanvas.Proofs.Binary64.Distance
import AnimatedCanvas.Proofs.Config.Circuit
import AnimatedCanvas.Proofs.Span
import AnimatedCanvas.Random.Generator

namespace AnimatedCanvas

open Binary64

theorem toNat_orderKey {x : Float} (h : IsUnsigned x) : (orderKey x).toNat = 2 ^ 63 + x.toBits.toNat := by
  have high : x.toBits &&& 0x8000000000000000 = 0 := by
    apply UInt64.toNat.inj
    rw [UInt64.toNat_and]
    change x.toBits.toNat &&& 2 ^ 63 = 0
    rw [Nat.and_two_pow, Nat.testBit_lt_two_pow h, Bool.toNat_false, Nat.zero_mul]
  have disjoint := Nat.two_pow_add_eq_or_of_lt h 1
  rw [Nat.mul_one] at disjoint
  rw [orderKey, if_pos high, UInt64.toNat_or, Nat.or_comm, disjoint]
  rfl

theorem orderKey_le {x y : Float} (hx : IsUnsigned x) (hy : IsUnsigned y) (le : x ≤ y) :
    orderKey x ≤ orderKey y := by
  rw [UInt64.le_iff_toNat_le, toNat_orderKey hx, toNat_orderKey hy]
  exact Nat.add_le_add_left (toBits_le_toBits hx hy le) _

structure IsTime (t : Float) : Prop where
  number : t.isNaN = false
  nonneg : 0 ≤ value t
  unsigned : IsUnsigned t

theorem isTime_zero : IsTime 0.0 := ⟨rfl, le_rfl, Nat.two_pow_pos 63⟩

namespace GateEvent

variable {es : List GateEvent}

theorem sort_of_pairwise (times : ∀ e ∈ es, IsTime e.time)
    (order : es.Pairwise fun a b => a.time ≤ b.time) : sort es = es := by
  refine List.mergeSort_of_pairwise (order.imp_of_mem fun ha hb le => ?_)
  exact decide_eq_true (orderKey_le (times _ ha).unsigned (times _ hb).unsigned le)

end GateEvent

variable {c : CircuitConfig} {t step : Float}

theorem CircuitConfig.Valid.step_pos (valid : c.Valid) : 0 < Binary64.value c.timeStep.min := by
  have number := isNaN_of_isFinite valid.timeStep.1.min
  by_contra nonpos
  exact valid.timeStep.2 (le_iff.mpr ⟨number, rfl, by simpa using nonpos⟩)

theorem CircuitConfig.Valid.pos_of_holds (valid : c.Valid) (held : c.timeStep.Holds step) :
    0 < Binary64.value step :=
  valid.step_pos.trans_le held.min

theorem IsTime.add (h : IsTime t) (finite : step.isFinite = true) (positive : 0 < value step) :
    IsTime (t + step) ∧ t ≤ t + step := by
  obtain ⟨number, le, le'⟩ :=
    le_add_of_nonneg_numbers h.number (isNaN_of_isFinite finite) h.nonneg positive.le
  have later := positive.trans_le le'
  exact ⟨⟨number, later.le, isUnsigned_of_pos later⟩, le_iff.mpr ⟨h.number, number, le⟩⟩

theorem IsTime.lt_add (h : IsTime t) (valid : c.Valid) (held : c.timeStep.Holds step) :
    t < t + step ∨ t.isFinite = false ∨ 2 ^ 51 * value c.timeStep.min < value t := by
  have positive := valid.pos_of_holds held
  by_cases finite : t.isFinite = true
  · by_cases few : value t ≤ 2 ^ 51 * value c.timeStep.min
    · refine .inl (lt_iff.mpr ⟨h.number, (h.add held.finite positive).1.number, ?_⟩)
      exact self_lt_add finite held.finite h.nonneg positive
        (few.trans (mul_le_mul_of_nonneg_left held.min (by norm_num)))
    · exact .inr (.inr (not_le.mp few))
  · exact .inr (.inl (Bool.eq_false_iff.mpr finite))

/-- The next gate is a step later, and its time is larger unless the step is lost. -/
structure CircuitConfig.Precedes (c : CircuitConfig) (a b : GateEvent) : Prop where
  step : ∃ step, c.timeStep.Holds step ∧ b.time = a.time + step
  rises : a.time < b.time ∨ a.time.isFinite = false ∨
    2 ^ 51 * Binary64.value c.timeStep.min < Binary64.value a.time

structure CircuitConfig.FewSteps (c : CircuitConfig) : Prop where
  short : c.gateCount * Binary64.value c.timeStep.max ≤ 2 ^ 50 * Binary64.value c.timeStep.min
  bounded : c.gateCount * Binary64.value c.timeStep.max ≤ 2 ^ (1022 : ℤ)

theorem IsTime.value_add_le {k : ℤ} (minimum : -1074 ≤ k) (max : value c.timeStep.max ≤ 2 ^ k)
    {i : Nat} (few : i + 1 < 2 ^ 53) (h : IsTime t) (held : c.timeStep.Holds step)
    (le : value t ≤ scaled i k) : value (t + step) ≤ scaled (i + 1) k := by
  by_cases far : limit ≤ scaled (i + 1) k
  · exact (value_le_limit _).trans far
  · have next : scaled (i + 1) k = scaled i k + 2 ^ k := by
      rw [scaled, scaled]
      push_cast
      ring
    have finite : t.isFinite = true := isFinite_iff.mpr
      ⟨h.number, (neg_lt_zero.mpr limit_pos).trans_le h.nonneg,
        (le.trans (by rw [next]; linarith [two_zpow_pos k])).trans_lt (not_le.mp far)⟩
    -- The next multiple of `2 ^ k` is a float, so that rounding does not lead beyond it.
    obtain ⟨z, number, same⟩ := exists_value_eq few minimum
    rw [min_eq_left (not_le.mp far).le] at same
    rw [← same]
    refine ((between_add finite held.finite).2 z number).2 ?_
    rw [same, next]
    exact add_le_add le (held.max.trans max)

namespace GateEvent

variable {σ : Type} [WordStream σ] {tracks : Nat}

theorem time_draw (tracks : Nat) (dualChance time : Float) (g : σ) :
    (draw tracks dualChance time g).1.time = time := by
  unfold draw
  split
  · dsimp only
    split <;> rfl
  · rfl

theorem exists_drawFrom_succ (valid : c.Valid) (tracks n : Nat) (time : Float) (g : σ) :
    ∃ (step : Float) (g' : σ), c.timeStep.Holds step ∧ (drawFrom tracks c (n + 1) time g).1 =
      (draw tracks c.dualChance time g).1 :: (drawFrom tracks c n (time + step) g').1 :=
  ⟨_, _, Span.holds_sample valid.timeStep.1 _, rfl⟩

theorem length_drawFrom (tracks : Nat) (c : CircuitConfig) (n : Nat) (time : Float) (g : σ) :
    (drawFrom tracks c n time g).1.length = n := by
  induction n generalizing time g with
  | zero => rfl
  | succ n ih => simp [drawFrom, ih]

theorem time_head_drawFrom (valid : c.Valid) (n : Nat) (time : Float) (g : σ) :
    ∀ e ∈ (drawFrom tracks c n time g).1.head?, e.time = time := by
  cases n with
  | zero => exact fun _ member => nomatch member
  | succ n =>
      obtain ⟨step, g', -, drawn⟩ := exists_drawFrom_succ valid tracks n time g
      intro e first
      rw [drawn, List.head?_cons, Option.mem_some_iff] at first
      rw [← first]
      exact time_draw tracks c.dualChance time g

theorem isTime_drawFrom (valid : c.Valid) {time : Float} (h : IsTime time) (n : Nat) (g : σ) :
    ∀ e ∈ (drawFrom tracks c n time g).1, IsTime e.time ∧ time ≤ e.time := by
  induction n generalizing time g with
  | zero => exact fun _ member => nomatch member
  | succ n ih =>
      obtain ⟨step, g', held, drawn⟩ := exists_drawFrom_succ valid tracks n time g
      obtain ⟨later, le⟩ := h.add held.finite (valid.pos_of_holds held)
      rw [drawn, List.forall_mem_cons, time_draw]
      refine ⟨⟨h, le_iff.mpr ⟨h.number, h.number, le_rfl⟩⟩, fun e member => ?_⟩
      obtain ⟨isTime, le'⟩ := ih later g' e member
      exact ⟨isTime, le_chain le le'⟩

theorem pairwise_drawFrom (valid : c.Valid) {time : Float} (h : IsTime time) (n : Nat) (g : σ) :
    (drawFrom tracks c n time g).1.Pairwise fun a b => a.time ≤ b.time := by
  induction n generalizing time g with
  | zero => exact .nil
  | succ n ih =>
      obtain ⟨step, g', held, drawn⟩ := exists_drawFrom_succ valid tracks n time g
      obtain ⟨later, le⟩ := h.add held.finite (valid.pos_of_holds held)
      rw [drawn]
      refine .cons (fun e member => ?_) (ih later g')
      obtain ⟨-, le'⟩ := isTime_drawFrom valid later n g' e member
      rw [time_draw]
      exact le_chain le le'

theorem sort_drawFrom (valid : c.Valid) (n : Nat) (g : σ) :
    sort (drawFrom tracks c n 0.0 g).1 = (drawFrom tracks c n 0.0 g).1 :=
  sort_of_pairwise (fun e member => (isTime_drawFrom valid isTime_zero n g e member).1)
    (pairwise_drawFrom valid isTime_zero n g)

theorem generate_eq_drawFrom (valid : c.Valid) (some : tracks ≠ 0) (random : σ) :
    (generate tracks c random).1 = (drawFrom tracks c c.gateCount 0.0 random).1 := by
  rw [generate, if_neg some]
  exact sort_drawFrom valid c.gateCount random

theorem isChain_drawFrom (valid : c.Valid) {time : Float} (h : IsTime time) (n : Nat) (g : σ) :
    (drawFrom tracks c n time g).1.IsChain c.Precedes := by
  induction n generalizing time g with
  | zero => exact .nil
  | succ n ih =>
      obtain ⟨step, g', held, drawn⟩ := exists_drawFrom_succ valid tracks n time g
      rw [drawn, List.isChain_cons]
      refine ⟨fun next first => ?_, ih (h.add held.finite (valid.pos_of_holds held)).1 g'⟩
      have later := time_head_drawFrom valid n (time + step) g' next first
      have now := time_draw tracks c.dualChance time g
      refine ⟨⟨step, held, by rw [now, later]⟩, ?_⟩
      rw [now, later]
      exact h.lt_add valid held

theorem value_drawFrom_le (valid : c.Valid) {k : ℤ} (minimum : -1074 ≤ k)
    (max : Binary64.value c.timeStep.max ≤ 2 ^ k) {n i : Nat} (few : i + n < 2 ^ 53) {time : Float}
    (h : IsTime time) (le : Binary64.value time ≤ scaled i k) (g : σ) :
    ∀ e ∈ (drawFrom tracks c n time g).1, Binary64.value e.time ≤ scaled (i + n) k := by
  induction n generalizing i time g with
  | zero => exact fun _ member => nomatch member
  | succ n ih =>
      obtain ⟨step, g', held, drawn⟩ := exists_drawFrom_succ valid tracks n time g
      rw [drawn, List.forall_mem_cons, time_draw]
      refine ⟨le.trans (scaled_le_scaled.mpr (Nat.le_add_right _ _)), ?_⟩
      rw [← Nat.add_assoc, Nat.add_right_comm]
      exact ih (by omega) (h.add held.finite (valid.pos_of_holds held)).1
        (h.value_add_le minimum max (by omega) held le) g'

theorem times_within (valid : c.Valid) (few : c.FewSteps) (g : σ) :
    ∀ e ∈ (drawFrom tracks c c.gateCount 0.0 g).1,
      e.time.isFinite = true ∧ Binary64.value e.time ≤ 2 ^ 51 * Binary64.value c.timeStep.min := by
  have order := valid.timeStep.1.value_le
  have positive := valid.step_pos.trans_le order
  obtain ⟨k, lower, upper⟩ := exists_mem_Ioc_zpow positive (one_lt_two (α := ℚ))
  have minimum : -1074 ≤ k + 1 := (zpow_le_zpow_iff_right₀ (one_lt_two (α := ℚ))).mp
    ((two_zpow_le_of_pos positive).trans upper)
  have count : c.gateCount ≤ 2 ^ 50 := by
    have := few.short.trans (mul_le_mul_of_nonneg_left order (by norm_num))
    exact_mod_cast le_of_mul_le_mul_right this positive
  have whole : scaled c.gateCount (k + 1) ≤ 2 * (c.gateCount * Binary64.value c.timeStep.max) := by
    rw [scaled, zpow_add_one₀ two_ne_zero]
    have := mul_le_mul_of_nonneg_left lower.le (Nat.cast_nonneg (α := ℚ) c.gateCount)
    linarith
  intro e member
  have isTime := (isTime_drawFrom valid isTime_zero c.gateCount g e member).1
  have le := value_drawFrom_le valid minimum upper (i := 0) (by omega) isTime_zero (by simp) g e member
  rw [Nat.zero_add] at le
  have bounded : Binary64.value e.time < limit := by
    have room : 2 * (2 : ℚ) ^ (1022 : ℤ) < limit := by
      rw [← zpow_one_add₀ two_ne_zero]
      exact zpow_lt_zpow_right₀ one_lt_two (by norm_num)
    linarith [few.bounded]
  exact ⟨isFinite_iff.mpr ⟨isTime.number, (neg_lt_zero.mpr limit_pos).trans_le isTime.nonneg, bounded⟩,
    by linarith [few.short]⟩

/-- From gate to gate the time grows by a step of the range; it rises unless it is infinite, or so long
that the step may be lost. It always rises where the steps are few and of a size. -/
theorem times_rise_until_lost (valid : c.validate = .ok ()) (tracks : Nat) (random : σ) :
    (generate tracks c random).1.IsChain c.Precedes ∧
      (c.FewSteps → (generate tracks c random).1.Pairwise fun a b => a.time < b.time) := by
  have valid := CircuitConfig.validate_eq_ok.mp valid
  by_cases none : tracks = 0
  · rw [generate, if_pos none]
    exact ⟨.nil, fun _ => .nil⟩
  · rw [generate_eq_drawFrom valid none]
    have chain : (drawFrom tracks c c.gateCount 0.0 random).1.IsChain c.Precedes :=
      isChain_drawFrom valid isTime_zero c.gateCount random
    refine ⟨chain, fun few => ?_⟩
    have : Trans (fun a b : GateEvent => a.time < b.time) (fun a b : GateEvent => a.time < b.time)
        (fun a b : GateEvent => a.time < b.time) := ⟨lt_chain⟩
    refine (chain.imp_of_mem_imp fun a b member _ precedes => ?_).pairwise
    obtain ⟨finite, short⟩ := times_within valid few random a member
    rcases precedes.rises with less | infinite | long
    · exact less
    · simp [finite] at infinite
    · exact absurd short long.not_ge

theorem times_rise_until_lost_standard :
    ({} : CircuitConfig).validate = .ok () ∧ ({} : CircuitConfig).FewSteps ∧
      (generate 5 {} (Generator.ofSeed 7)).1.Pairwise fun a b => a.time < b.time := by
  have few : ({} : CircuitConfig).FewSteps := by
    have three : Binary64.value 3.0 = 3 := by
      change scaled 6755399441055744 (-51) = 3
      norm_num [scaled]
    constructor
    · change (30 : ℕ) * Binary64.value 3.0 ≤ 2 ^ 50 * Binary64.value 1.0
      norm_num [three]
    · change (30 : ℕ) * Binary64.value 3.0 ≤ 2 ^ (1022 : ℤ)
      refine le_trans ?_ (zpow_le_zpow_right₀ one_le_two (by norm_num : (7 : ℤ) ≤ 1022))
      norm_num [three]
  exact ⟨rfl, few, (times_rise_until_lost rfl 5 (Generator.ofSeed 7)).2 few⟩

def hugeSteps : CircuitConfig :=
  { gateCount := 4, timeStep := ⟨.ofBits 0x7fe0000000000000, .ofBits 0x7fe0000000000000⟩ }

theorem overflowing_times_stall :
    let times := (generate 1 hugeSteps (Generator.ofSeed 1)).1.map (·.time)
    hugeSteps.validate = .ok () ∧
      times = [0.0, .ofBits 0x7fe0000000000000, 1.0 / 0.0, 1.0 / 0.0] ∧ ¬ times.IsChain (· < ·) := by
  have valid : hugeSteps.validate = .ok () := rfl
  have drawn := generate_eq_drawFrom (CircuitConfig.validate_eq_ok.mp valid) one_ne_zero
    (Generator.ofSeed 1)
  rw [drawn]
  exact ⟨valid, rfl, by decide⟩

end GateEvent
end AnimatedCanvas
