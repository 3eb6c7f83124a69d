import AnimatedCanvas.Proofs.Binary64.Arithmetic
import Mathlib.Order.OrderIsoNat

namespace AnimatedCanvas.Binary64

variable {x y : Float}

theorem exists_multiple (nonneg : 0 ≤ value x) : ∃ n : Nat, value x = scaled n (-1074) := by
  obtain ⟨m, e, canonical, same, -⟩ := exists_canonical (fits x) nonneg
  refine ⟨m * 2 ^ (e + 1074).toNat, ?_⟩
  have minimum := canonical.minimum
  rw [scaled_mul_two_pow, Int.toNat_of_nonneg (by omega)]
  change value x = _ at same
  rw [same]
  congr 1
  omega

theorem falling_settles {u : Nat → Float} (nonneg : ∀ n, 0 ≤ value (u n))
    (falls : ∀ n, value (u (n + 1)) ≤ value (u n)) :
    ∃ N, ∀ n ≥ N, value (u (n + 1)) = value (u n) := by
  -- As multiples of the least positive value, they cannot fall for ever.
  choose k same using fun n => exists_multiple (nonneg n)
  have antitone : Antitone k := antitone_nat_of_succ_le fun n => by
    have := falls n
    rwa [same, same, scaled_le_scaled] at this
  obtain ⟨N, settled⟩ := WellFoundedGT.monotone_chain_condition (α := Natᵒᵈ) ⟨k, antitone.dual_right⟩
  refine ⟨N, fun n later => ?_⟩
  rw [same, same]
  exact congrArg (scaled · _) ((settled (n + 1) (by omega)).symm.trans (settled n later))

theorem rising_settles {u : Nat → Float} (nonneg : ∀ n, 0 ≤ value (u n))
    (rises : ∀ n, value (u n) ≤ value (u (n + 1))) :
    ∃ N, ∀ n ≥ N, value (u (n + 1)) = value (u n) := by
  choose k same using fun n => exists_multiple (nonneg n)
  obtain ⟨top, highest⟩ := exists_nat_ge (limit / 2 ^ (-1074 : ℤ))
  rw [div_le_iff₀ (two_zpow_pos _)] at highest
  have bounded (n : Nat) : k n ≤ top := by
    have := (value_le_limit (u n)).trans highest
    rwa [same, ← scaled, scaled_le_scaled] at this
  -- What they lack of the greatest multiple falls.
  have antitone : Antitone fun n => top - k n := antitone_nat_of_succ_le fun n => by
    have := rises n
    rw [same, same, scaled_le_scaled] at this
    exact Nat.sub_le_sub_left this _
  obtain ⟨N, settled⟩ := WellFoundedGT.monotone_chain_condition (α := Natᵒᵈ) ⟨_, antitone.dual_right⟩
  refine ⟨N, fun n later => ?_⟩
  rw [same, same]
  have now : top - k N = top - k n := settled n later
  have next : top - k N = top - k (n + 1) := settled (n + 1) (by omega)
  have := bounded n
  have := bounded (n + 1)
  congr 1
  omega

theorem sub_lt_self (hx : x.isFinite = true) (hy : y.isFinite = true) (positive : 0 < value x)
    (le_one : value x ≤ 1) (step : 2 ^ (-53 : ℤ) ≤ value y) : value (x - y) < value x := by
  obtain ⟨-, between⟩ := between_sub hx hy
  -- The greatest multiple of the step below `x` is a float.
  have unit : (2 : ℚ) ^ (-53 : ℤ) * 2 ^ 53 = 1 := by norm_num
  have some : 0 < ⌈value x * 2 ^ 53⌉₊ := Nat.ceil_pos.mpr (by positivity)
  have small : ⌈value x * 2 ^ 53⌉₊ ≤ 2 ^ 53 := Nat.ceil_le.mpr (by
    push_cast
    exact mul_le_of_le_one_left (by positivity) le_one)
  obtain ⟨n, next⟩ := Nat.exists_eq_add_one.mpr some
  have lower : (n : ℚ) < value x * 2 ^ 53 := Nat.lt_ceil.mp (by omega)
  have upper : value x * 2 ^ 53 ≤ n + 1 := by
    have := Nat.le_ceil (value x * 2 ^ 53)
    rw [next] at this
    exact_mod_cast this
  obtain ⟨z, number, same⟩ := exists_value_eq (n := n) (e := -53) (by omega) (by norm_num)
  have below : scaled n (-53) < value x := by
    rw [scaled, ← mul_lt_mul_iff_of_pos_right (show (0 : ℚ) < 2 ^ 53 by norm_num), mul_assoc, unit,
      mul_one]
    exact lower
  rw [min_eq_left (below.le.trans (value_le_limit x))] at same
  have near : value x - value y ≤ value z := by
    have : value x ≤ scaled n (-53) + 2 ^ (-53 : ℤ) := by
      rw [scaled, ← mul_le_mul_iff_of_pos_right (show (0 : ℚ) < 2 ^ 53 by norm_num), add_mul,
        mul_assoc, unit, mul_one]
      exact upper
    linarith
  exact ((between z number).2 near).trans_lt (same.trans_lt below)

theorem self_lt_add (hx : x.isFinite = true) (hy : y.isFinite = true) (nonneg : 0 ≤ value x)
    (positive : 0 < value y) (few : value x ≤ 2 ^ 51 * value y) : value x < value (x + y) := by
  obtain ⟨-, between⟩ := between_add hx hy
  obtain ⟨k, lower, upper⟩ := exists_mem_Ico_zpow positive (one_lt_two (α := ℚ))
  rw [zpow_add_one₀ two_ne_zero] at upper
  have unit : (0 : ℚ) < 2 ^ k := by positivity
  have minimum : -1074 < k + 1 := (zpow_lt_zpow_iff_right₀ (one_lt_two (α := ℚ))).mp
    ((two_zpow_le_of_pos positive).trans_lt (upper.trans_eq (zpow_add_one₀ two_ne_zero k).symm))
  -- The first multiple of `2 ^ k` above `x` is a float.
  have floor_le : (⌊value x / 2 ^ k⌋₊ : ℚ) * 2 ^ k ≤ value x :=
    (le_div_iff₀ unit).mp (Nat.floor_le (div_nonneg nonneg unit.le))
  have above : value x < scaled (⌊value x / 2 ^ k⌋₊ + 1) k := by
    rw [scaled]
    push_cast
    exact (div_lt_iff₀ unit).mp (Nat.lt_floor_add_one _)
  have short : ⌊value x / 2 ^ k⌋₊ + 1 < 2 ^ 53 := by
    have : ⌊value x / 2 ^ k⌋₊ ≤ 2 ^ 52 := Nat.floor_le_of_le (by
      rw [div_le_iff₀ unit]
      push_cast
      linarith)
    omega
  obtain ⟨z, number, same⟩ := exists_value_eq short (e := k) (by omega)
  have higher : value x < value z := same ▸ lt_min above (value_bounds hx).2
  refine higher.trans_le ((between z number).1 ?_)
  calc value z ≤ scaled (⌊value x / 2 ^ k⌋₊ + 1) k := same.trans_le (min_le_left _ _)
    _ = ⌊value x / 2 ^ k⌋₊ * 2 ^ k + 2 ^ k := by
        rw [scaled]
        push_cast
        ring
    _ ≤ value x + value y := add_le_add floor_le lower

end AnimatedCanvas.Binary64
