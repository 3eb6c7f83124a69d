import AnimatedCanvas.Decimal.Shortest
import AnimatedCanvas.Proofs.Binary64.Canonical

namespace AnimatedCanvas.Decimal.RoundingInterval

open Binary64 (scaled scaled_lt_scaled scaled_mul_two_pow scaled_pos two_zpow_pos)

def lower (r : RoundingInterval) : ℚ := scaled r.low r.power

def upper (r : RoundingInterval) : ℚ := scaled r.high r.power

def Contains (r : RoundingInterval) (v : ℚ) : Prop :=
  if r.closed then r.lower ≤ v ∧ v ≤ r.upper else r.lower < v ∧ v < r.upper

variable {r : RoundingInterval} {v : ℚ}

theorem Contains.bounds (h : r.Contains v) : r.lower ≤ v ∧ v ≤ r.upper := by
  unfold Contains at h
  split at h
  · exact h
  · exact ⟨h.1.le, h.2.le⟩

theorem Contains.closed_of_end (h : r.Contains v) (atEnd : v = r.lower ∨ v = r.upper) :
    r.closed = true := by
  by_contra isOpen
  rw [Contains, if_neg isOpen] at h
  obtain rfl | rfl := atEnd
  · exact h.1.false
  · exact h.2.false

section

variable (r) (e : Int)

def scale : ℚ := 10 ^ (-e).toNat * 2 ^ (-r.power).toNat

theorem scale_pos : 0 < r.scale e := by
  unfold scale
  positivity

theorem pow_toNat {b : ℚ} (h : b ≠ 0) (n : Int) : b ^ n.toNat = b ^ n * b ^ (-n).toNat := by
  rw [← zpow_natCast, ← zpow_natCast, ← zpow_add₀ h]
  congr 1
  omega

theorem gridStep_eq : (r.gridStep e : ℚ) = 10 ^ e * r.scale e := by
  simp only [gridStep, scale, Nat.pow_eq, Nat.cast_mul, Nat.cast_pow, Nat.cast_ofNat]
  rw [pow_toNat (by norm_num) e, mul_assoc]

theorem gridUnit_eq : (r.gridUnit e : ℚ) = 2 ^ r.power * r.scale e := by
  simp only [gridUnit, scale, Nat.pow_eq, Nat.cast_mul, Nat.cast_pow, Nat.cast_ofNat]
  rw [pow_toNat (by norm_num) r.power]
  ring

theorem mul_gridUnit (m : Nat) : ((m * r.gridUnit e : Nat) : ℚ) = scaled m r.power * r.scale e := by
  rw [Nat.cast_mul, gridUnit_eq, scaled, mul_assoc]

theorem mul_gridStep (c : Nat) : ((c * r.gridStep e : Nat) : ℚ) = c * 10 ^ e * r.scale e := by
  rw [Nat.cast_mul, gridStep_eq, mul_assoc]

theorem holds_iff (c : Nat) : r.holds e c = true ↔ r.Contains (c * 10 ^ e) := by
  have le {x y : Nat} {a b : ℚ} (hx : (x : ℚ) = a * r.scale e) (hy : (y : ℚ) = b * r.scale e) :
      (x ≤ y ↔ a ≤ b) ∧ (x < y ↔ a < b) := by
    rw [← Nat.cast_le (α := ℚ), ← Nat.cast_lt (α := ℚ), hx, hy,
      mul_le_mul_iff_left₀ (r.scale_pos e), mul_lt_mul_iff_left₀ (r.scale_pos e)]
    exact ⟨.rfl, .rfl⟩
  have first := le (r.mul_gridUnit e r.low) (r.mul_gridStep e c)
  have last := le (r.mul_gridStep e c) (r.mul_gridUnit e r.high)
  unfold holds Contains
  cases r.closed with
  | true => simp only [if_true, Bool.and_eq_true, decide_eq_true_eq, first.1, last.1, lower, upper]
  | false =>
      simp only [Bool.false_eq_true, if_false, Bool.and_eq_true, decide_eq_true_eq, first.2, last.2,
        lower, upper]

end

def nth (n : Nat) : RoundingInterval :=
  let exponent := n / 2 ^ 52
  let fraction := n % 2 ^ 52
  let mantissa := if exponent = 0 then fraction else fraction + 2 ^ 52
  { low := 4 * mantissa - (if fraction = 0 ∧ 1 < exponent then 1 else 2)
    mid := 4 * mantissa
    high := 4 * mantissa + 2
    power := (max exponent 1 : Nat) - 1077
    closed := mantissa % 2 == 0 }

theorem ofBits_eq_nth {bits : UInt64} (unsigned : bits.toNat < 2 ^ 63) :
    ofBits bits = nth bits.toNat := by
  have exponent : (bits >>> 52 &&& 0x7ff).toNat = bits.toNat / 2 ^ 52 := by
    rw [UInt64.toNat_and, UInt64.toNat_shiftRight]
    change bits.toNat >>> 52 &&& (2 ^ 11 - 1) = _
    rw [Nat.and_two_pow_sub_one_eq_mod, Nat.shiftRight_eq_div_pow]
    omega
  have fraction : (bits &&& 0xfffffffffffff).toNat = bits.toNat % 2 ^ 52 := by
    rw [UInt64.toNat_and]
    exact Nat.and_two_pow_sub_one_eq_mod bits.toNat 52
  rw [ofBits, nth, exponent, fraction]
  rfl

variable {a b n : Nat}

theorem mid_nth_pos (positive : 0 < n) : 0 < (nth n).mid := by
  simp only [nth]
  split <;> omega

theorem low_lt_mid (positive : 0 < n) : (nth n).low < (nth n).mid := by
  simp only [nth]
  split <;> split <;> omega

theorem lower_nth_pos (positive : 0 < n) : 0 < (nth n).lower := by
  refine scaled_pos ?_ _
  simp only [nth]
  split <;> split <;> omega

theorem lower_lt_upper (n : Nat) : (nth n).lower < (nth n).upper := by
  refine scaled_lt_scaled.2 ?_
  simp only [nth]
  omega

theorem closed_nth : (nth n).closed = true ↔ n % 2 = 0 := by
  simp only [nth, beq_iff_eq]
  split <;> omega

theorem upper_nth (n : Nat) : (nth n).upper = (nth (n + 1)).lower := by
  by_cases doubles : (n + 1) % 2 ^ 52 = 0 ∧ 0 < n / 2 ^ 52
  · -- The next number is a power of two, in units twice as large.
    have power : (nth (n + 1)).power = (nth n).power + 1 := by
      simp only [nth]
      omega
    have high : (nth n).high = (nth (n + 1)).low * 2 ^ 1 := by
      simp only [nth]
      split <;> split <;> split <;> omega
    rw [upper, lower, power, high]
    exact scaled_mul_two_pow _ 1 _
  · have power : (nth n).power = (nth (n + 1)).power := by
      simp only [nth]
      omega
    have high : (nth n).high = (nth (n + 1)).low := by
      simp only [nth]
      split <;> split <;> split <;> omega
    rw [upper, lower, power, high]

theorem upper_le_lower (less : a < b) : (nth a).upper ≤ (nth b).lower := by
  induction b, less using Nat.le_induction with
  | base => exact (upper_nth a).le
  | succ b _ ih => exact ih.trans ((lower_lt_upper b).le.trans (upper_nth b).le)

theorem eq_of_contains (first : (nth a).Contains v) (second : (nth b).Contains v) : a = b := by
  have apart {a b : Nat} (first : (nth a).Contains v) (second : (nth b).Contains v) : ¬ a < b := by
    intro less
    have le := upper_le_lower less
    have atEnd : v = (nth a).upper := le_antisymm first.bounds.2 (le.trans second.bounds.1)
    have atEnd' : v = (nth b).lower := le_antisymm (atEnd.trans_le le) second.bounds.1
    have even := closed_nth.1 (first.closed_of_end (.inr atEnd))
    have even' := closed_nth.1 (second.closed_of_end (.inl atEnd'))
    -- Both numbers are even, so there is one between them.
    have between : a + 1 < b := by omega
    have gap := (upper_nth a).trans_lt ((lower_lt_upper (a + 1)).trans_le (upper_le_lower between))
    exact gap.ne (atEnd.symm.trans atEnd')
  exact le_antisymm (Nat.le_of_not_lt (apart second first)) (Nat.le_of_not_lt (apart first second))

end AnimatedCanvas.Decimal.RoundingInterval
