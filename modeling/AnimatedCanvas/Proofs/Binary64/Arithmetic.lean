import AnimatedCanvas.Proofs.Binary64.Rounding

namespace AnimatedCanvas.Binary64

open Float.Model (UnpackedFloat Format totalExponent)
open Float.Model.UnpackedFloat

variable {x y z : Float}

/-! ## Bounds and representable numbers -/

theorem value_le_limit (x : Float) : value x ≤ limit := by
  by_cases nonneg : 0 ≤ value x
  · obtain ⟨-, -, -, -, bound⟩ := exists_canonical (fits x) nonneg
    exact bound
  · linarith [limit_pos]

theorem isFinite_iff :
    x.isFinite = true ↔ x.isNaN = false ∧ -limit < value x ∧ value x < limit := by
  have fitting := fits x
  change x.toModel.unpack.isFinite = true ↔ x.toModel.unpack.isNaN = false ∧
    -limit < valueOf x.toModel.unpack ∧ valueOf x.toModel.unpack < limit
  cases unpacked : x.toModel.unpack with
  | notANumber => simp [UnpackedFloat.isFinite, UnpackedFloat.isNaN]
  | infinity s => cases s <;> simp [UnpackedFloat.isFinite, valueOf, signed]
  | zero s => simp [UnpackedFloat.isFinite, UnpackedFloat.isNaN, valueOf, limit_pos]
  | finite s m e positive =>
      rw [unpacked] at fitting
      simpa [UnpackedFloat.isFinite, UnpackedFloat.isNaN] using
        valueOf_finite_bounds positive fitting s

theorem value_bounds (h : x.isFinite = true) : -limit < value x ∧ value x < limit :=
  (isFinite_iff.mp h).2

theorem isFinite_of_between (number : x.isNaN = false) {lower upper : Float}
    (hl : lower.isFinite = true) (hu : upper.isFinite = true)
    (le : value lower ≤ value x) (ge : value x ≤ value upper) : x.isFinite = true :=
  isFinite_iff.mpr
    ⟨number, (value_bounds hl).1.trans_le le, ge.trans_lt (value_bounds hu).2⟩

theorem isFinite_of_nonneg_of_le (number : x.isNaN = false) (nonneg : 0 ≤ value x)
    (hy : y.isFinite = true) (le : value x ≤ value y) : x.isFinite = true :=
  isFinite_iff.mpr
    ⟨number, (neg_lt_zero.mpr limit_pos).trans_le nonneg, le.trans_lt (value_bounds hy).2⟩

theorem exists_value_of_canonical {m : Nat} {e : Int} (h : Canonical m e) :
    ∃ z : Float, z.isNaN = false ∧ value z = min (scaled m e) limit :=
  ⟨⟨Float.Model.pack (ofParts .positive m e)⟩, isNaN_unpack_pack_ofParts .positive h,
    valueOf_unpack_pack_ofParts .positive h⟩

theorem exists_value_eq {n : Nat} {e : Int} (short : n < 2 ^ 53) (minimum : -1074 ≤ e) :
    ∃ z : Float, z.isNaN = false ∧ value z = min (scaled n e) limit := by
  rcases Nat.eq_zero_or_pos n with rfl | positive
  · refine ⟨0.0, isNaN_zero, ?_⟩
    rw [scaled_zero, min_eq_left limit_pos.le, value_zero]
  · have bits : n.log2 < 53 := (Nat.log2_lt positive.ne').mpr short
    let k := min (52 - n.log2) (e + 1074).toNat
    have canonical : Canonical (n * 2 ^ k) (e - k) := by
      constructor
      · calc n * 2 ^ k < 2 ^ (n.log2 + 1) * 2 ^ k :=
              Nat.mul_lt_mul_of_pos_right Nat.lt_log2_self (by positivity)
          _ = 2 ^ (n.log2 + 1 + k) := (Nat.pow_add 2 _ _).symm
          _ ≤ 2 ^ 53 := Nat.pow_le_pow_right (by norm_num) (by omega)
      · omega
      · rcases le_total (52 - n.log2) (e + 1074).toNat with room | tight
        · refine .inl ?_
          calc 2 ^ 52 = 2 ^ n.log2 * 2 ^ k := by
                rw [← Nat.pow_add]
                congr 1
                omega
            _ ≤ n * 2 ^ k := Nat.mul_le_mul_right _ (Nat.log2_self_le positive.ne')
        · exact .inr (by omega)
    obtain ⟨z, number, same⟩ := exists_value_of_canonical canonical
    refine ⟨z, number, ?_⟩
    rw [same, scaled_mul_two_pow, sub_add_cancel]

theorem exists_value_eq_two_zpow {k : Int} (minimum : -1074 ≤ k) :
    ∃ z : Float, z.isNaN = false ∧ value z = min (2 ^ k) limit := by
  have := exists_value_eq (n := 1) (by norm_num) minimum
  rwa [scaled, Nat.cast_one, one_mul] at this

theorem exists_isFinite_eq_two_zpow {k : Int} (minimum : -1074 ≤ k) (maximum : k < 1024) :
    ∃ z : Float, z.isFinite = true ∧ value z = 2 ^ k := by
  have below : (2 : ℚ) ^ k < limit := zpow_lt_zpow_right₀ one_lt_two maximum
  obtain ⟨z, number, same⟩ := exists_value_eq_two_zpow minimum
  rw [min_eq_left below.le] at same
  have above : -limit < (2 : ℚ) ^ k := (neg_lt_zero.mpr limit_pos).trans (two_zpow_pos k)
  exact ⟨z, isFinite_iff.mpr ⟨number, same ▸ above, same ▸ below⟩, same⟩

theorem two_zpow_le_of_pos (positive : 0 < value x) :
    2 ^ (-1074 : ℤ) ≤ value x := by
  obtain ⟨m, e, canonical, same, -⟩ := exists_canonical (fits x) positive.le
  change value x = _ at same
  have some : 1 ≤ m := by
    by_contra none
    rw [same, Nat.lt_one_iff.mp (not_le.mp none), scaled_zero] at positive
    exact lt_irrefl _ positive
  calc (2 : ℚ) ^ (-1074 : ℤ) ≤ 2 ^ e := zpow_le_zpow_right₀ one_le_two canonical.minimum
    _ = 1 * 2 ^ e := (one_mul _).symm
    _ ≤ m * 2 ^ e := by
        have : (1 : ℚ) ≤ m := by exact_mod_cast some
        gcongr
    _ = value x := same.symm

/-! ## Infinities -/

def IsInfinite (s : Sign) (x : Float) : Prop := x.toModel.unpack = .infinity s

theorem isFinite_or_isInfinite (h : x.isNaN = false) :
    x.isFinite = true ∨ ∃ s, IsInfinite s x := by
  have number : x.toModel.unpack.isNaN = false := h
  change x.toModel.unpack.isFinite = true ∨ _
  unfold IsInfinite
  cases unpacked : x.toModel.unpack with
  | infinity s => exact .inr ⟨s, rfl⟩
  | notANumber => simp [unpacked, UnpackedFloat.isNaN] at number
  | zero s => exact .inl rfl
  | finite s m e positive => exact .inl rfl

variable {s : Sign}

theorem IsInfinite.isNaN (h : IsInfinite s x) : x.isNaN = false := by
  change x.toModel.unpack.isNaN = false
  rw [h]
  rfl

theorem IsInfinite.value (h : IsInfinite s x) : value x = signed s limit := by
  rw [Binary64.value, h, valueOf]

theorem unpack_ofBits (b : UInt64) :
    (Float.ofBits b).toModel.unpack = unpack Format.binary64 b.toBitVec :=
  unpack_pack (fits_unpack _)

theorem unpack_add (x y : Float) : (x + y).toModel.unpack = unpack Format.binary64
    (pack Format.binary64 (UnpackedFloat.add Format.binary64 x.toModel.unpack y.toModel.unpack)) :=
  rfl

theorem unpack_sub (x y : Float) : (x - y).toModel.unpack = unpack Format.binary64
    (pack Format.binary64 (UnpackedFloat.sub Format.binary64 x.toModel.unpack y.toModel.unpack)) :=
  rfl

theorem unpack_mul (x y : Float) : (x * y).toModel.unpack = unpack Format.binary64
    (pack Format.binary64 (UnpackedFloat.mul Format.binary64 x.toModel.unpack y.toModel.unpack)) :=
  rfl

theorem unpack_div (x y : Float) : (x / y).toModel.unpack = unpack Format.binary64
    (pack Format.binary64 (UnpackedFloat.div Format.binary64 x.toModel.unpack y.toModel.unpack)) :=
  rfl

theorem unpack_sqrt (x : Float) : x.sqrt.toModel.unpack = unpack Format.binary64
    (pack Format.binary64 (UnpackedFloat.sqrt Format.binary64 x.toModel.unpack)) :=
  rfl

theorem IsInfinite.add (hx : IsInfinite s x) (hy : y.isFinite = true) : IsInfinite s (x + y) := by
  rw [IsInfinite, unpack_add, hx]
  obtain ⟨t, same⟩ | ⟨t, m, e, positive, same⟩ := zero_or_finite hy
  all_goals
    rw [same]
    exact unpack_pack_infinity s

theorem IsInfinite.add_left (hx : IsInfinite s x) (hy : y.isFinite = true) :
    IsInfinite s (y + x) := by
  rw [IsInfinite, unpack_add, hx]
  obtain ⟨t, same⟩ | ⟨t, m, e, positive, same⟩ := zero_or_finite hy
  all_goals
    rw [same]
    exact unpack_pack_infinity s

theorem IsInfinite.sub (hx : IsInfinite s x) (hy : y.isFinite = true) : IsInfinite s (x - y) := by
  rw [IsInfinite, unpack_sub, hx]
  obtain ⟨t, same⟩ | ⟨t, m, e, positive, same⟩ := zero_or_finite hy
  all_goals
    rw [same]
    exact unpack_pack_infinity s

theorem IsInfinite.mul_self (hx : IsInfinite s x) : IsInfinite .positive (x * x) := by
  rw [IsInfinite, unpack_mul, hx]
  cases s <;> exact unpack_pack_infinity .positive

theorem IsInfinite.isNaN_mul (hx : IsInfinite s x) (number : y.isNaN = false)
    (nonzero : Binary64.value y ≠ 0) : (x * y).isNaN = false := by
  change (x * y).toModel.unpack.isNaN = false
  have real : y.toModel.unpack.isNaN = false := number
  rw [unpack_mul, hx]
  rw [Binary64.value] at nonzero
  cases unpacked : y.toModel.unpack with
  | infinity t =>
      change (unpack _ (pack _ (.infinity (s * t)))).isNaN = false
      rw [unpack_pack_infinity]
      rfl
  | notANumber => simp [unpacked, UnpackedFloat.isNaN] at real
  | zero t =>
      rw [unpacked] at nonzero
      exact absurd rfl nonzero
  | finite t m e positive =>
      change (unpack _ (pack _ (.infinity (s * t)))).isNaN = false
      rw [unpack_pack_infinity]
      rfl

theorem IsInfinite.sqrt (hx : IsInfinite .positive x) : IsInfinite .positive x.sqrt := by
  rw [IsInfinite, unpack_sqrt, hx]
  exact unpack_pack_infinity .positive

/-! ## Differences -/

theorem sub_unpacked (x y : UnpackedFloat) :
    UnpackedFloat.sub Format.binary64 x y = UnpackedFloat.add Format.binary64 x y.neg := by
  cases x with
  | notANumber => rfl
  | infinity s => cases y <;> rfl
  | zero s => cases y <;> rfl
  | finite s m e hm =>
      cases y with
      | notANumber => rfl
      | infinity t => rfl
      | zero t => rfl
      | finite t n d hn =>
          have negated : ∀ k : Nat, (-t).apply k = -t.apply k := by
            intro k
            cases t
            · exact (neg_neg _).symm
            · rfl
          simp only [UnpackedFloat.sub, UnpackedFloat.add, UnpackedFloat.neg, negated,
            sub_eq_add_neg]

theorem sub_eq_add (x y : Float) : x - y = x + -y := by
  change (⟨Float.Model.pack _⟩ : Float) = ⟨Float.Model.pack _⟩
  rw [sub_unpacked, ← unpack_neg]

theorem isFinite_neg (x : Float) : (-x).isFinite = x.isFinite := by
  change (-x).toModel.unpack.isFinite = x.toModel.unpack.isFinite
  rw [unpack_neg]
  cases x.toModel.unpack <;> rfl

theorem closest_sub (hx : x.isFinite = true) (hy : y.isFinite = true) :
    (x - y).isNaN = false ∧ Closest (value x - value y) (value (x - y)) := by
  have sum := closest_add hx ((isFinite_neg y).trans hy)
  rwa [← sub_eq_add, value_neg, ← sub_eq_add_neg] at sum

theorem between_sub (hx : x.isFinite = true) (hy : y.isFinite = true) :
    (x - y).isNaN = false ∧ Between (value x - value y) (value (x - y)) :=
  (closest_sub hx hy).imp_right Closest.between

/-! ## Products -/

theorem signed_mul (s t : Sign) (v w : ℚ) : signed (s * t) (v * w) = signed s v * signed t w := by
  cases s <;> cases t
  · exact (neg_mul_neg v w).symm
  · exact (neg_mul v w).symm
  · exact (mul_neg v w).symm
  · rfl

theorem signed_div (s t : Sign) (v w : ℚ) : signed (s / t) (v / w) = signed s v / signed t w := by
  cases s <;> cases t
  · exact (neg_div_neg_eq v w).symm
  · exact (neg_div w v).symm
  · exact (div_neg v).symm
  · rfl

theorem scaled_mul (m n : Nat) (d e : Int) : scaled m d * scaled n e = scaled (m * n) (d + e) := by
  unfold scaled
  rw [zpow_add₀ (by norm_num : (2 : ℚ) ≠ 0)]
  push_cast
  ring

theorem Canonical.le_target_mul {m n : Nat} {d e : Int} (hm : Canonical m d) (hn : Canonical n e)
    (positive : 0 < m * n) : d + e ≤ target (m * n) (d + e) := by
  have product : m * n ≠ 0 := positive.ne'
  have full (h : 2 ^ 52 ≤ m * n) : d + e ≤ target (m * n) (d + e) := by
    have := (Nat.le_log2 product).mpr h
    unfold target
    omega
  -- One mantissa of full length fills the product's; without one, both exponents are the least.
  rcases hm.normal with long | rfl
  · exact full (long.trans (Nat.le_mul_of_pos_right m (Nat.pos_of_mul_pos_left positive)))
  · rcases hn.normal with long | rfl
    · exact full (long.trans (Nat.le_mul_of_pos_left n (Nat.pos_of_mul_pos_right positive)))
    · unfold target
      omega

theorem closest_unpack_zero (s : Sign) :
    (unpack Format.binary64 (pack Format.binary64 (.zero s))).isNaN = false ∧
      Closest 0 (valueOf (unpack Format.binary64 (pack Format.binary64 (.zero s)))) := by
  rw [unpack_pack_zero]
  exact ⟨rfl, Closest.refl 0⟩

theorem closest_mul_unpacked {x y : UnpackedFloat} (hx : Fits x) (hy : Fits y)
    (fx : x.isFinite = true) (fy : y.isFinite = true) :
    let u := unpack Format.binary64 (pack Format.binary64 (UnpackedFloat.mul Format.binary64 x y))
    u.isNaN = false ∧ Closest (valueOf x * valueOf y) (valueOf u) := by
  obtain ⟨s, rfl⟩ | ⟨s, m, e, hm, rfl⟩ := zero_or_finite fx
  · rw [show valueOf (.zero s) = 0 from rfl, zero_mul]
    obtain ⟨t, rfl⟩ | ⟨t, n, d, hn, rfl⟩ := zero_or_finite fy
    · exact closest_unpack_zero (s * t)
    · exact closest_unpack_zero (s * t)
  · obtain ⟨t, rfl⟩ | ⟨t, n, d, hn, rfl⟩ := zero_or_finite fy
    · rw [show valueOf (.zero t) = 0 from rfl, mul_zero]
      exact closest_unpack_zero (s * t)
    · have exact : valueOf (.finite s m e hm) * valueOf (.finite t n d hn) =
          signed (s * t) (scaled (m * n) (e + d)) := by
        rw [← scaled_mul, signed_mul]
        rfl
      rw [exact]
      exact closest_roundWithAccuracy (s * t) (scaled_nonneg _ _) (truncates_exact _ _)
        (hx.1.le_target_mul hy.1 (Nat.mul_pos hm hn))

theorem closest_mul (hx : x.isFinite = true) (hy : y.isFinite = true) :
    (x * y).isNaN = false ∧ Closest (value x * value y) (value (x * y)) :=
  closest_mul_unpacked (fits x) (fits y) hx hy

theorem between_mul (hx : x.isFinite = true) (hy : y.isFinite = true) :
    (x * y).isNaN = false ∧ Between (value x * value y) (value (x * y)) :=
  (closest_mul hx hy).imp_right Closest.between

/-! ## Quotients -/

theorem truncates_div {m n : Nat} (positive : 0 < n) (e : Int) :
    Truncates (scaled m e / n) e (.ofMantissaAndAccuracy (m / n) (accuracyOfFraction (m % n) n)) := by
  have divisor : (0 : ℚ) < n := Nat.cast_pos.mpr positive
  have denominator : (0 : ℚ) < 2 * n := by positivity
  -- All numbers are brought to one denominator, so that their numerators are to be compared.
  have quotient : scaled m e / n = scaled (2 * m) e / (2 * n) := by
    unfold scaled
    push_cast
    field_simp
  have whole (q : Nat) : scaled q e = scaled (2 * (q * n)) e / (2 * n) := by
    unfold scaled
    push_cast
    field_simp
  have center (q : Nat) : middle q e = scaled (2 * (q * n) + n) e / (2 * n) := by
    unfold middle scaled
    push_cast
    field_simp
  have less {j k : Nat} (h : j < k) : scaled j e / (2 * n) < scaled k e / (2 * n) :=
    (div_lt_div_iff_of_pos_right denominator).mpr (scaled_lt_scaled.mpr h)
  have parts : m / n * n + m % n = m := Nat.div_add_mod' m n
  have short : m % n < n := Nat.mod_lt m positive
  rw [quotient]
  unfold accuracyOfFraction
  split
  next none =>
    rw [show 2 * m = 2 * (m / n * n) by omega, ← whole]
    exact truncates_exact _ _
  next rest =>
    refine truncates_inexact ?_ ?_ ?_
    · rw [whole (m / n)]
      exact (less (by omega)).le
    · rw [whole (m / n + 1), Nat.add_one_mul (m / n) n]
      exact less (by omega)
    · rw [center]
      rcases lt_trichotomy (2 * (m % n)) n with small | half | large
      · rw [compare_lt_iff_lt.mpr small]
        exact less (by omega)
      · rw [compare_eq_iff_eq.mpr half, show 2 * m = 2 * (m / n * n) + n by omega]
        rfl
      · rw [compare_gt_iff_gt.mpr large]
        exact less (by omega)

theorem le_target_divCore {m n : Nat} (hm : 0 < m) (hn : 0 < n) (d e : Int) :
    (divCore Format.binary64 m d n e).2.1 ≤
      target (divCore Format.binary64 m d n e).1 (divCore Format.binary64 m d n e).2.1 := by
  let least := min (d - e) (max ((m.log2 + 1 + d) - (n.log2 + 1 + e) - 53) (-1074))
  let k := (d - e - least).toNat
  change least ≤ target ((m <<< k) / n) least
  -- Above the least exponent, the dividend is shifted until the quotient has as many bits as are kept.
  by_cases small : least ≤ -1074
  · unfold target
    omega
  · have wide : n.log2 + 53 ≤ m.log2 + k := by omega
    have quotient : 2 ^ 52 ≤ (m <<< k) / n := by
      rw [Nat.le_div_iff_mul_le hn, Nat.shiftLeft_eq]
      calc 2 ^ 52 * n ≤ 2 ^ 52 * 2 ^ (n.log2 + 1) :=
            Nat.mul_le_mul_left _ Nat.lt_log2_self.le
        _ = 2 ^ (n.log2 + 53) := by rw [← Nat.pow_add, Nat.add_comm]
        _ ≤ 2 ^ (m.log2 + k) := Nat.pow_le_pow_right (by norm_num) wide
        _ = 2 ^ m.log2 * 2 ^ k := Nat.pow_add 2 _ _
        _ ≤ m * 2 ^ k := Nat.mul_le_mul_right _ (Nat.log2_self_le hm.ne')
    have bits := (Nat.le_log2 (by omega)).mpr quotient
    unfold target
    omega

theorem scaled_shift_div {m n : Nat} {d e least : Int} (le : least ≤ d - e) :
    scaled (m <<< (d - e - least).toNat) least / n = scaled m d / scaled n e := by
  rw [Nat.shiftLeft_eq, scaled_mul_two_pow, Int.toNat_of_nonneg (by omega), add_sub_cancel]
  unfold scaled
  rw [zpow_sub₀ (by norm_num : (2 : ℚ) ≠ 0)]
  field_simp

theorem closest_div_unpacked {x y : UnpackedFloat} (fx : x.isFinite = true)
    (fy : y.isFinite = true) (nonzero : valueOf y ≠ 0) :
    let u := unpack Format.binary64 (pack Format.binary64 (UnpackedFloat.div Format.binary64 x y))
    u.isNaN = false ∧ Closest (valueOf x / valueOf y) (valueOf u) := by
  obtain ⟨t, rfl⟩ | ⟨t, n, d, hn, rfl⟩ := zero_or_finite fy
  · exact absurd rfl nonzero
  · obtain ⟨s, rfl⟩ | ⟨s, m, e, hm, rfl⟩ := zero_or_finite fx
    · rw [show valueOf (.zero s) = 0 from rfl, zero_div]
      exact closest_unpack_zero (s / t)
    · let least := (divCore Format.binary64 m e n d).2.1
      have le : least ≤ e - d := min_le_left _ _
      have cut := truncates_div (m := m <<< (e - d - least).toNat) hn least
      have exact : valueOf (.finite s m e hm) / valueOf (.finite t n d hn) =
          signed (s / t) (scaled (m <<< (e - d - least).toNat) least / n) := by
        rw [scaled_shift_div le, signed_div]
        rfl
      rw [exact]
      exact closest_roundWithAccuracy (s / t)
        (div_nonneg (scaled_nonneg _ _) (Nat.cast_nonneg n)) cut (le_target_divCore hm hn e d)

theorem closest_div (hx : x.isFinite = true) (hy : y.isFinite = true) (nonzero : value y ≠ 0) :
    (x / y).isNaN = false ∧ Closest (value x / value y) (value (x / y)) :=
  closest_div_unpacked hx hy nonzero

theorem between_div (hx : x.isFinite = true) (hy : y.isFinite = true) (nonzero : value y ≠ 0) :
    (x / y).isNaN = false ∧ Between (value x / value y) (value (x / y)) :=
  (closest_div hx hy nonzero).imp_right Closest.between

/-! ## Square roots -/

def rootExponent (m : Nat) (e : Int) : Int :=
  min (e / 2) (max ((m.log2 + 1 + e + 1) / 2 - 53) (-1074))

def radicand (m : Nat) (e : Int) : Nat := m <<< (e - 2 * rootExponent m e).toNat

theorem scaled_radicand (m : Nat) (e : Int) :
    scaled (radicand m e) (2 * rootExponent m e) = scaled m e := by
  have le : 2 * rootExponent m e ≤ e := by
    unfold rootExponent
    omega
  rw [radicand, Nat.shiftLeft_eq, scaled_mul_two_pow, Int.toNat_of_nonneg (by omega), add_sub_cancel]

theorem two_pow_le_sqrt_radicand {m : Nat} {e : Int} (positive : 0 < m) (minimum : -1074 ≤ e) :
    2 ^ 52 ≤ (radicand m e).sqrt := by
  have wide : 104 ≤ m.log2 + (e - 2 * rootExponent m e).toNat := by
    unfold rootExponent
    omega
  rw [Nat.le_sqrt', ← Nat.pow_mul, radicand, Nat.shiftLeft_eq]
  calc 2 ^ (52 * 2) ≤ 2 ^ (m.log2 + (e - 2 * rootExponent m e).toNat) :=
        Nat.pow_le_pow_right (by norm_num) wide
    _ = 2 ^ m.log2 * 2 ^ (e - 2 * rootExponent m e).toNat := Nat.pow_add 2 _ _
    _ ≤ m * 2 ^ (e - 2 * rootExponent m e).toNat :=
        Nat.mul_le_mul_right _ (Nat.log2_self_le positive.ne')

def rootAccuracy (n : Nat) : Accuracy :=
  if n - n.sqrt * n.sqrt = 0 then .exact
  else .inexact (if n - n.sqrt * n.sqrt ≤ n.sqrt then .lt else .gt)

theorem exists_truncates_sqrt (n : Nat) (e : Int) :
    ∃ v, Truncates v e (.ofMantissaAndAccuracy n.sqrt (rootAccuracy n)) := by
  have lower := scaled_lt_middle n.sqrt e
  have upper := middle_lt_scaled n.sqrt e
  unfold rootAccuracy
  split
  · exact ⟨_, truncates_exact n.sqrt e⟩
  · -- Any number on the root's side of the middle is rounded as the root is.
    split
    · exact ⟨_, truncates_inexact le_rfl (lower.trans upper) lower⟩
    · obtain ⟨v, above, below⟩ := exists_between upper
      exact ⟨v, truncates_inexact (lower.trans above).le below above⟩

theorem sqrt_finite_unpacked {m : Nat} {e : Int} (positive : 0 < m) (canonical : Canonical m e) :
    let u := unpack Format.binary64 (pack Format.binary64
      (UnpackedFloat.sqrt Format.binary64 (.finite .positive m e positive)))
    u.isNaN = false ∧ ∀ z : Float, z.isNaN = false → 0 ≤ value z →
      value z ^ 2 ≤ scaled m e → value z ≤ valueOf u := by
  have full := two_pow_le_sqrt_radicand positive canonical.minimum
  have below : rootExponent m e ≤ target (radicand m e).sqrt (rootExponent m e) := by
    have := (Nat.le_log2 (by omega)).mpr full
    unfold target
    omega
  obtain ⟨v, cut⟩ := exists_truncates_sqrt (radicand m e) (rootExponent m e)
  have lower := cut.le
  rw [mantissa_ofMantissaAndAccuracy] at lower
  obtain ⟨number, closest⟩ := closest_roundWithAccuracy .positive
    ((scaled_nonneg _ _).trans lower) cut below
  refine ⟨number, fun z real nonneg square => ?_⟩
  obtain ⟨n, d, fitting, same, -⟩ := exists_canonical (fits z) nonneg
  change value z = _ at same
  have above : scaled n d < scaled ((radicand m e).sqrt + 1) (rootExponent m e) := by
    refine lt_of_pow_lt_pow_left₀ 2 (scaled_nonneg _ _) ?_
    rw [same] at square
    calc scaled n d ^ 2 ≤ scaled m e := square
      _ = scaled (radicand m e) (2 * rootExponent m e) := (scaled_radicand m e).symm
      _ < scaled ((radicand m e).sqrt.succ ^ 2) (2 * rootExponent m e) :=
          scaled_lt_scaled.mpr (Nat.lt_succ_sqrt' _)
      _ = scaled ((radicand m e).sqrt + 1) (rootExponent m e) ^ 2 := by
          rw [sq (scaled _ _), scaled_mul, sq, two_mul]
  refine (closest.between z real).1 ?_
  rw [same]
  exact (fitting.scaled_le_of_lt (.inl full) above).trans lower

theorem le_value_sqrt (number : x.isNaN = false) (nonneg : 0 ≤ value x) :
    x.sqrt.isNaN = false ∧ ∀ z : Float, z.isNaN = false → 0 ≤ value z →
      value z ^ 2 ≤ value x → value z ≤ value x.sqrt := by
  have real : x.toModel.unpack.isNaN = false := number
  have fitting := fits x
  change x.sqrt.toModel.unpack.isNaN = false ∧ ∀ z : Float, z.isNaN = false → 0 ≤ value z →
    value z ^ 2 ≤ valueOf x.toModel.unpack → value z ≤ valueOf x.sqrt.toModel.unpack
  rw [value] at nonneg
  rw [unpack_sqrt]
  cases unpacked : x.toModel.unpack with
  | notANumber => simp [unpacked, UnpackedFloat.isNaN] at real
  | infinity s =>
      cases s with
      | negative =>
          rw [unpacked] at nonneg
          exact absurd nonneg (not_le.mpr (neg_lt_zero.mpr limit_pos))
      | positive =>
          change (unpack _ (pack _ (.infinity .positive))).isNaN = false ∧ _
          rw [show UnpackedFloat.sqrt Format.binary64 (.infinity .positive) = .infinity .positive
            from rfl, unpack_pack_infinity]
          exact ⟨rfl, fun z _ _ _ => value_le_limit z⟩
  | zero s =>
      rw [show UnpackedFloat.sqrt Format.binary64 (.zero s) = .zero s from rfl, unpack_pack_zero]
      refine ⟨rfl, fun z _ _ square => ?_⟩
      have : value z = 0 := pow_eq_zero_iff (two_ne_zero) |>.mp
        (le_antisymm square (sq_nonneg (value z)))
      exact this.le
  | finite s m e positive =>
      cases s with
      | negative =>
          rw [unpacked] at nonneg
          exact absurd nonneg (not_le.mpr (neg_lt_zero.mpr (scaled_pos positive e)))
      | positive =>
          rw [unpacked] at fitting
          exact sqrt_finite_unpacked positive fitting.1

end AnimatedCanvas.Binary64
