import AnimatedCanvas.Proofs.Binary64.Arithmetic

namespace AnimatedCanvas.Binary64

open Float.Model (UnpackedFloat Format)
open Float.Model.UnpackedFloat

variable {x y dx dy : Float} {s : Sign}

theorem isNaN_add (hx : x.isFinite = true) (hy : y.isNaN = false) : (x + y).isNaN = false := by
  rcases isFinite_or_isInfinite hy with finite | ⟨s, infinite⟩
  · exact (between_add hx finite).1
  · exact (infinite.add_left hx).isNaN

theorem isNaN_sub (hx : x.isNaN = false) (hy : y.isFinite = true) : (x - y).isNaN = false := by
  rcases isFinite_or_isInfinite hx with finite | ⟨s, infinite⟩
  · exact (between_sub finite hy).1
  · exact (infinite.sub hy).isNaN

theorem isNaN_mul (hx : x.isNaN = false) (hy : y.isFinite = true) (nonzero : value y ≠ 0) :
    (x * y).isNaN = false := by
  rcases isFinite_or_isInfinite hx with finite | ⟨s, infinite⟩
  · exact (between_mul finite hy).1
  · exact infinite.isNaN_mul (isNaN_of_isFinite hy) nonzero

theorem IsInfinite.isFinite (h : IsInfinite s x) : x.isFinite = false := by
  change x.toModel.unpack.isFinite = false
  rw [h]
  rfl

theorem isFinite_of_isFinite_add (hx : x.isFinite = true) (hy : y.isNaN = false)
    (sum : (x + y).isFinite = true) : y.isFinite = true := by
  rcases isFinite_or_isInfinite hy with finite | ⟨s, infinite⟩
  · exact finite
  · exact absurd sum (by simp [(infinite.add_left hx).isFinite])

theorem isFinite_of_isFinite_sub (hx : x.isNaN = false) (hy : y.isFinite = true)
    (difference : (x - y).isFinite = true) : x.isFinite = true := by
  rcases isFinite_or_isInfinite hx with finite | ⟨s, infinite⟩
  · exact finite
  · exact absurd difference (by simp [(infinite.sub hy).isFinite])

theorem isFinite_of_abs_le (number : x.isNaN = false) (hy : y.isFinite = true)
    (le : |value x| ≤ value y) : x.isFinite = true := by
  obtain ⟨lower, upper⟩ := abs_le.mp le
  rw [← value_neg] at lower
  exact isFinite_of_between number ((isFinite_neg y).trans hy) hy lower upper

theorem mul_self_nonneg_of_number (number : x.isNaN = false) :
    (x * x).isNaN = false ∧ 0 ≤ value (x * x) := by
  rcases isFinite_or_isInfinite number with finite | ⟨s, infinite⟩
  · obtain ⟨number, between⟩ := between_mul finite finite
    exact ⟨number, between.nonneg (mul_self_nonneg _)⟩
  · have square := infinite.mul_self
    refine ⟨square.isNaN, ?_⟩
    rw [square.value]
    exact limit_pos.le

theorem isFinite_or_isInfinite_positive (number : x.isNaN = false) (nonneg : 0 ≤ value x) :
    x.isFinite = true ∨ IsInfinite .positive x := by
  rcases isFinite_or_isInfinite number with finite | ⟨s, infinite⟩
  · exact .inl finite
  · cases s with
    | negative =>
        rw [infinite.value] at nonneg
        exact absurd nonneg (not_le.mpr (neg_lt_zero.mpr limit_pos))
    | positive => exact .inr infinite

theorem IsInfinite.add_positive (hx : IsInfinite .positive x) (number : y.isNaN = false)
    (nonneg : 0 ≤ Binary64.value y) : IsInfinite .positive (x + y) ∧ IsInfinite .positive (y + x) := by
  rcases isFinite_or_isInfinite_positive number nonneg with finite | infinite
  · exact ⟨hx.add finite, hx.add_left finite⟩
  · have sum : ∀ {x y : Float}, IsInfinite .positive x → IsInfinite .positive y →
        IsInfinite .positive (x + y) := by
      intro x y hx hy
      rw [IsInfinite, unpack_add, hx, hy]
      exact unpack_pack_infinity .positive
    exact ⟨sum hx infinite, sum infinite hx⟩

theorem le_add_of_nonneg_numbers (hx : x.isNaN = false) (hy : y.isNaN = false)
    (nonneg : 0 ≤ value x) (nonneg' : 0 ≤ value y) :
    (x + y).isNaN = false ∧ value x ≤ value (x + y) ∧ value y ≤ value (x + y) := by
  have infinite : IsInfinite .positive (x + y) →
      (x + y).isNaN = false ∧ value x ≤ value (x + y) ∧ value y ≤ value (x + y) := by
    intro sum
    rw [sum.value]
    exact ⟨sum.isNaN, value_le_limit x, value_le_limit y⟩
  rcases isFinite_or_isInfinite_positive hx nonneg with finite | infiniteX
  · rcases isFinite_or_isInfinite_positive hy nonneg' with finite' | infiniteY
    · obtain ⟨number, between⟩ := between_add finite finite'
      exact ⟨number, (between x hx).1 (by linarith), (between y hy).1 (by linarith)⟩
    · exact infinite (infiniteY.add_positive hx nonneg).2
  · exact infinite (infiniteX.add_positive hy nonneg').1

theorem squares_le_sum (hx : dx.isNaN = false) (hy : dy.isNaN = false) :
    (dx * dx + dy * dy).isNaN = false ∧ value (dx * dx) ≤ value (dx * dx + dy * dy) ∧
      value (dy * dy) ≤ value (dx * dx + dy * dy) := by
  obtain ⟨numberX, nonnegX⟩ := mul_self_nonneg_of_number hx
  obtain ⟨numberY, nonnegY⟩ := mul_self_nonneg_of_number hy
  exact le_add_of_nonneg_numbers numberX numberY nonnegX nonnegY

theorem value_sqrt_of_value_zero (number : x.isNaN = false) (zero : value x = 0) :
    value x.sqrt = 0 := by
  have real : x.toModel.unpack.isNaN = false := number
  rw [value] at zero
  rw [value, unpack_sqrt]
  cases unpacked : x.toModel.unpack with
  | notANumber => simp [unpacked, UnpackedFloat.isNaN] at real
  | infinity s =>
      rw [unpacked] at zero
      cases s with
      | negative => exact absurd (neg_eq_zero.mp zero) limit_pos.ne'
      | positive => exact absurd zero limit_pos.ne'
  | zero s =>
      rw [show UnpackedFloat.sqrt Format.binary64 (.zero s) = .zero s from rfl, unpack_pack_zero]
      rfl
  | finite s m e positive =>
      rw [unpacked] at zero
      cases s with
      | negative => exact absurd (neg_eq_zero.mp zero) (scaled_pos positive e).ne'
      | positive => exact absurd zero (scaled_pos positive e).ne'

theorem isNaN_distance (hx : dx.isNaN = false) (hy : dy.isNaN = false) :
    (dx * dx + dy * dy).sqrt.isNaN = false ∧ 0 ≤ value (dx * dx + dy * dy).sqrt := by
  obtain ⟨number, le, -⟩ := squares_le_sum hx hy
  have nonneg := (mul_self_nonneg_of_number hx).2.trans le
  obtain ⟨real, above⟩ := le_value_sqrt number nonneg
  refine ⟨real, ?_⟩
  have := above 0.0 isNaN_zero le_rfl
  rw [value_zero, zero_pow two_ne_zero] at this
  exact this nonneg

theorem IsInfinite.distance (h : IsInfinite s dx) (number : dy.isNaN = false) :
    IsInfinite .positive (dx * dx + dy * dy).sqrt ∧
      IsInfinite .positive (dy * dy + dx * dx).sqrt := by
  obtain ⟨real, nonneg⟩ := mul_self_nonneg_of_number number
  obtain ⟨left, right⟩ := h.mul_self.add_positive real nonneg
  exact ⟨left.sqrt, right.sqrt⟩

theorem two_zpow_le_sqrt {k : ℤ} (number : x.isNaN = false) (minimum : -1074 ≤ k)
    (small : (2 : ℚ) ^ k ≤ limit) (le : 2 ^ (2 * k) ≤ value x) : 2 ^ k ≤ value x.sqrt := by
  obtain ⟨z, real, same⟩ := exists_value_eq_two_zpow minimum
  rw [min_eq_left small] at same
  have nonneg : (0 : ℚ) ≤ 2 ^ k := by positivity
  have square : value z ^ 2 = 2 ^ (2 * k) := by
    rw [same, ← zpow_natCast, ← zpow_mul, mul_comm]
    rfl
  rw [← same] at nonneg ⊢
  refine (le_value_sqrt number ?_).2 z real nonneg (square.trans_le le)
  exact (sq_nonneg (value z)).trans (square.trans_le le)

theorem two_zpow_le_square {k : ℤ} (hx : dx.isFinite = true) (minimum : -1074 ≤ 2 * k)
    (le : 2 ^ k ≤ |value dx|) : min (2 ^ (2 * k)) limit ≤ value (dx * dx) := by
  obtain ⟨z, number, same⟩ := exists_value_eq_two_zpow minimum
  rw [← same]
  refine ((between_mul hx hx).2 z number).1 ?_
  calc value z ≤ 2 ^ (2 * k) := same.trans_le (min_le_left _ _)
    _ = 2 ^ k * 2 ^ k := by rw [two_mul, zpow_add₀ two_ne_zero]
    _ ≤ |value dx| * |value dx| := mul_self_le_mul_self (by positivity) le
    _ = value dx * value dx := abs_mul_abs_self _

theorem abs_le_two_mul_sqrt (hx : dx.isFinite = true) (number : x.isNaN = false)
    (above : value (dx * dx) ≤ value x) (nonzero : value x.sqrt ≠ 0) :
    |value dx| ≤ 2 * value x.sqrt := by
  have nonneg := (mul_self_nonneg_of_number (isNaN_of_isFinite hx)).2.trans above
  have bound : |value dx| < limit := abs_lt.mpr (value_bounds hx)
  rcases isFinite_or_isInfinite_positive number nonneg with finite | infinite
  · have positive : 0 < value x :=
      nonneg.lt_of_ne fun zero => nonzero (value_sqrt_of_value_zero number zero.symm)
    -- The root is at least that of the least positive float.
    have unit : (2 : ℚ) ^ (-537 : ℤ) ≤ limit := by
      refine le_trans (zpow_le_one_of_nonpos₀ one_le_two (by norm_num)) ?_
      rw [← value_one]
      exact value_le_limit 1.0
    have least : (2 : ℚ) ^ (-537 : ℤ) ≤ value x.sqrt :=
      two_zpow_le_sqrt number (by norm_num) unit (two_zpow_le_of_pos positive)
    rcases eq_or_ne (value dx) 0 with zero | nonzero
    · rw [zero, abs_zero]
      linarith [show (0 : ℚ) < 2 ^ (-537 : ℤ) by positivity]
    · obtain ⟨k, lower, upper⟩ := exists_mem_Ico_zpow (abs_pos.mpr nonzero) (one_lt_two (α := ℚ))
      rw [zpow_add_one₀ two_ne_zero] at upper
      -- The square of the lower power of two is a float, and its root is exact.
      rcases le_or_gt (-537) k with normal | tiny
      · have square := (two_zpow_le_square hx (by omega) lower).trans above
        have exact : (2 : ℚ) ^ (2 * k) ≤ value x := by
          rcases min_le_iff.mp square with le | full
          · exact le
          · exact absurd full (not_le.mpr (value_bounds finite).2)
        have root := two_zpow_le_sqrt number (by omega) (lower.trans bound.le) exact
        linarith
      · have : (2 : ℚ) ^ k ≤ 2 ^ (-537 : ℤ) := zpow_le_zpow_right₀ one_le_two (by omega)
        linarith
  · rw [infinite.sqrt.value]
    have := limit_pos
    change |value dx| ≤ 2 * limit
    linarith

theorem abs_le_two_mul_distance (hx : dx.isFinite = true) (hy : dy.isFinite = true)
    (nonzero : value (dx * dx + dy * dy).sqrt ≠ 0) :
    |value dx| ≤ 2 * value (dx * dx + dy * dy).sqrt ∧
      |value dy| ≤ 2 * value (dx * dx + dy * dy).sqrt := by
  obtain ⟨number, left, right⟩ := squares_le_sum (isNaN_of_isFinite hx) (isNaN_of_isFinite hy)
  exact ⟨abs_le_two_mul_sqrt hx number left nonzero, abs_le_two_mul_sqrt hy number right nonzero⟩

end AnimatedCanvas.Binary64
