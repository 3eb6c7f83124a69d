import Mathlib.Algebra.Order.Field.Rat
import Mathlib.Algebra.Order.Field.Power
import Mathlib.Tactic.Linarith
import Mathlib.Tactic.NormNum
import Mathlib.Tactic.Ring

namespace AnimatedCanvas.Binary64

open Float.Model Float.Model.UnpackedFloat

def scaled (m : Nat) (e : Int) : ℚ := m * 2 ^ e

theorem two_zpow_pos (e : Int) : (0 : ℚ) < 2 ^ e := zpow_pos (by norm_num) e

theorem scaled_nonneg (m : Nat) (e : Int) : 0 ≤ scaled m e :=
  mul_nonneg (Nat.cast_nonneg m) (two_zpow_pos e).le

theorem scaled_pos {m : Nat} (h : 0 < m) (e : Int) : 0 < scaled m e :=
  mul_pos (Nat.cast_pos.mpr h) (two_zpow_pos e)

@[simp] theorem scaled_zero (e : Int) : scaled 0 e = 0 := by simp [scaled]

theorem scaled_mul_two_pow (m k : Nat) (e : Int) : scaled (m * 2 ^ k) e = scaled m (e + k) := by
  unfold scaled
  rw [zpow_add₀ (by norm_num : (2 : ℚ) ≠ 0), zpow_natCast]
  push_cast
  ring

theorem scaled_le_scaled {m n : Nat} {e : Int} : scaled m e ≤ scaled n e ↔ m ≤ n := by
  rw [scaled, scaled, mul_le_mul_iff_left₀ (two_zpow_pos e), Nat.cast_le]

theorem scaled_lt_scaled {m n : Nat} {e : Int} : scaled m e < scaled n e ↔ m < n := by
  rw [scaled, scaled, mul_lt_mul_iff_left₀ (two_zpow_pos e), Nat.cast_lt]

structure Canonical (m : Nat) (e : Int) : Prop where
  lt : m < 2 ^ 53
  minimum : -1074 ≤ e
  normal : 2 ^ 52 ≤ m ∨ e = -1074

variable {m n q : Nat} {d e : Int}

theorem canonical_zero : Canonical 0 (-1074) := ⟨by norm_num, le_rfl, .inr rfl⟩

/-- The number that stands for infinity: the first one beyond the range. -/
def limit : ℚ := 2 ^ (1024 : Int)

theorem limit_pos : 0 < limit := two_zpow_pos 1024

theorem canonical_limit : Canonical (2 ^ 52) 972 := ⟨by norm_num, by norm_num, .inl le_rfl⟩

theorem scaled_limit : scaled (2 ^ 52) 972 = limit := by
  have := scaled_mul_two_pow 1 52 972
  rw [one_mul] at this
  rw [this, scaled, limit]
  norm_num

theorem scaled_lt_of_exponent (hm : m < 2 ^ 53) (hn : 2 ^ 52 ≤ n) (h : d < e) :
    scaled m d < scaled n e := by
  obtain ⟨k, rfl⟩ : ∃ k : Nat, e = d + 1 + k := ⟨(e - d - 1).toNat, by omega⟩
  calc scaled m d < scaled (2 ^ 53) d := scaled_lt_scaled.mpr hm
    _ = scaled (2 ^ 52) (d + 1) := scaled_mul_two_pow (2 ^ 52) 1 d
    _ ≤ scaled n (d + 1) := scaled_le_scaled.mpr hn
    _ ≤ scaled (n * 2 ^ k) (d + 1) := scaled_le_scaled.mpr (Nat.le_mul_of_pos_right n (by positivity))
    _ = scaled n (d + 1 + k) := scaled_mul_two_pow n k (d + 1)

theorem Canonical.scaled_lt_of_lt (hm : Canonical m d) (hn : Canonical n e) (h : d < e) :
    scaled m d < scaled n e := by
  refine scaled_lt_of_exponent hm.lt ?_ h
  rcases hn.normal with full | least
  · exact full
  · have := hm.minimum
    omega

theorem Canonical.compares (hm : Canonical m d) (hn : Canonical n e) :
    ((compare d e).then (compare m n)).Compares (scaled m d) (scaled n e) := by
  rcases lt_trichotomy d e with less | rfl | greater
  · rw [compare_lt_iff_lt.mpr less]
    exact hm.scaled_lt_of_lt hn less
  · rw [compare_eq_iff_eq.mpr rfl, Ordering.eq_then]
    rcases lt_trichotomy m n with less | rfl | greater
    · rw [compare_lt_iff_lt.mpr less]
      exact scaled_lt_scaled.mpr less
    · rw [compare_eq_iff_eq.mpr rfl]
      rfl
    · rw [compare_gt_iff_gt.mpr greater]
      exact scaled_lt_scaled.mpr greater
  · rw [compare_gt_iff_gt.mpr greater]
    exact hn.scaled_lt_of_lt hm greater

theorem Canonical.scaled_le_of_lt (h : Canonical m d) (full : 2 ^ 52 ≤ q ∨ e = -1074)
    (below : scaled m d < scaled (q + 1) e) : scaled m d ≤ scaled q e := by
  by_cases smaller : d < e
  · rcases full with full | least
    · exact (scaled_lt_of_exponent h.lt full smaller).le
    · have := h.minimum
      omega
  · obtain ⟨k, rfl⟩ : ∃ k : Nat, d = e + k := ⟨(d - e).toNat, by omega⟩
    rw [← scaled_mul_two_pow] at below ⊢
    rw [scaled_lt_scaled] at below
    exact scaled_le_scaled.mpr (Nat.le_of_lt_succ below)

theorem Canonical.scaled_lt_limit (h : Canonical m e) (small : e ≤ 971) : scaled m e < limit := by
  rw [← scaled_limit]
  exact h.scaled_lt_of_lt canonical_limit (by omega)

theorem Canonical.limit_le_scaled (h : Canonical m e) (large : 971 < e) : limit ≤ scaled m e := by
  rw [← scaled_limit]
  rcases eq_or_lt_of_le (show (972 : Int) ≤ e by omega) with rfl | more
  · rcases h.normal with full | least
    · exact scaled_le_scaled.mpr full
    · omega
  · exact (canonical_limit.scaled_lt_of_lt h more).le

end AnimatedCanvas.Binary64
