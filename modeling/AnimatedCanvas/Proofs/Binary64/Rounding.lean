import AnimatedCanvas.Proofs.Binary64.Order

/-!
# Rounding to binary64

No number that can be represented is nearer than the one that is rounded to (`Nearest`). Sums are exact
before they are rounded (`closest_add`), so that a bound on the exact sum by a float is one on the sum
of floats (`le_value_add`).
-/

namespace AnimatedCanvas.Binary64

open Float.Model (UnpackedFloat Format totalExponent)
open Float.Model.UnpackedFloat

/-- No number of full precision is nearer to `v` than `r` is. -/
def Nearest (v r : ℚ) : Prop := ∀ m e, Canonical m e → |v - r| ≤ |v - scaled m e|

/-! ## Shifting to the right -/

def middle (m : Nat) (e : Int) : ℚ := scaled (2 * m + 1) e / 2

theorem middle_succ (m : Nat) (e : Int) : middle m (e + 1) = scaled (2 * m + 1) e := by
  rw [middle, ← Nat.cast_one (R := ℤ), ← scaled_mul_two_pow, scaled, scaled]
  push_cast
  ring

theorem middle_eq (m : Nat) (e : Int) : middle m e = (scaled m e + scaled (m + 1) e) / 2 := by
  unfold middle scaled
  push_cast
  ring

/-- A number's mantissa at an exponent. Of the two residual bits, the first tells on which side of the
middle the number lies, and the second whether it is anywhere but at the mantissa or in the middle. -/
structure Truncates (v : ℚ) (e : Int) (t : ExtendedMantissa) : Prop where
  le : scaled t.mantissa e ≤ v
  lt : v < scaled (t.mantissa + 1) e
  low : t.roundBit = false → v ≤ middle t.mantissa e
  high : t.roundBit = true → middle t.mantissa e ≤ v
  exact : t.stickyBit = false →
    v = if t.roundBit then middle t.mantissa e else scaled t.mantissa e

theorem Truncates.shiftRightOne {v : ℚ} {e : Int} {t : ExtendedMantissa} (h : Truncates v e t) :
    Truncates v (e + 1) t.shiftRightOne := by
  have double (m : Nat) : scaled m (e + 1) = scaled (m * 2) e := (scaled_mul_two_pow m 1 e).symm
  have parity : t.shiftRightOne.roundBit = false ∧ 2 * (t.mantissa / 2) = t.mantissa ∨
      t.shiftRightOne.roundBit = true ∧ 2 * (t.mantissa / 2) + 1 = t.mantissa := by
    simp only [ExtendedMantissa.shiftRightOne, bne_eq_false_iff_eq, bne_iff_ne]
    omega
  have le : scaled t.shiftRightOne.mantissa (e + 1) ≤ v := by
    rw [double]
    exact (scaled_le_scaled.mpr (show t.mantissa / 2 * 2 ≤ t.mantissa by omega)).trans h.le
  have lt : v < scaled (t.shiftRightOne.mantissa + 1) (e + 1) := by
    rw [double]
    exact h.lt.trans_le
      (scaled_le_scaled.mpr (show t.mantissa + 1 ≤ (t.mantissa / 2 + 1) * 2 by omega))
  -- Without residual bits before the shift, the number is the mantissa itself.
  have whole (rest : t.shiftRightOne.stickyBit = false) : v = scaled t.mantissa e := by
    obtain ⟨round, sticky⟩ := Bool.or_eq_false_iff.mp rest
    simpa [round] using h.exact sticky
  have mantissa : t.shiftRightOne.mantissa = t.mantissa / 2 := rfl
  rcases parity with ⟨round, even⟩ | ⟨round, odd⟩
  · refine ⟨le, lt, fun _ => ?_, fun set => absurd set (by simp [round]), fun rest => ?_⟩
    · rw [mantissa, middle_succ, even]
      exact h.lt.le
    · rw [round, mantissa, double, mul_comm, even]
      exact whole rest
  · refine ⟨le, lt, fun unset => absurd unset (by simp [round]), fun _ => ?_, fun rest => ?_⟩
    · rw [mantissa, middle_succ, odd]
      exact h.le
    · rw [round, mantissa, middle_succ, odd]
      exact whole rest

theorem Truncates.shiftRight {v : ℚ} {e : Int} {t : ExtendedMantissa} (h : Truncates v e t)
    (k : Nat) : Truncates v (e + k) (t >>> k) := by
  induction k with
  | zero => simpa [HShiftRight.hShiftRight, Nat.repeat] using h
  | succ k ih =>
      rw [Nat.cast_add_one, ← add_assoc]
      exact ih.shiftRightOne

theorem scaled_lt_middle (m : Nat) (e : Int) : scaled m e < middle m e := by
  have := scaled_lt_scaled (e := e).mpr m.lt_succ_self
  rw [middle_eq]
  linarith

theorem middle_lt_scaled (m : Nat) (e : Int) : middle m e < scaled (m + 1) e := by
  have := scaled_lt_scaled (e := e).mpr m.lt_succ_self
  rw [middle_eq]
  linarith

theorem truncates_exact (n : Nat) (e : Int) :
    Truncates (scaled n e) e (.ofMantissaAndAccuracy n .exact) where
  le := le_rfl
  lt := scaled_lt_scaled.mpr n.lt_succ_self
  low := fun _ => (scaled_lt_middle n e).le
  high := nofun
  exact := fun _ => rfl

theorem truncates_inexact {v : ℚ} {n : Nat} {e : Int} {order : Ordering} (le : scaled n e ≤ v)
    (lt : v < scaled (n + 1) e) (side : order.Compares v (middle n e)) :
    Truncates v e (.ofMantissaAndAccuracy n (.inexact order)) := by
  cases order with
  | lt => exact ⟨le, lt, fun _ => le_of_lt side, nofun, nofun⟩
  | eq => exact ⟨le, lt, nofun, fun _ => ge_of_eq side, fun _ => side⟩
  | gt => exact ⟨le, lt, nofun, fun _ => le_of_lt side, nofun⟩

@[simp] theorem mantissa_ofMantissaAndAccuracy (n : Nat) (accuracy : Accuracy) :
    (ExtendedMantissa.ofMantissaAndAccuracy n accuracy).mantissa = n := by
  cases accuracy with
  | exact => rfl
  | inexact order => cases order <;> rfl

theorem Truncates.roundedMantissa {v : ℚ} {e : Int} {t : ExtendedMantissa}
    (h : Truncates v e t) :
    t.roundedMantissa = t.mantissa ∧ v ≤ middle t.mantissa e ∨
      t.roundedMantissa = t.mantissa + 1 ∧ middle t.mantissa e ≤ v := by
  obtain ⟨m, round, sticky⟩ := t
  cases round <;> cases sticky
  · exact .inl ⟨rfl, h.low rfl⟩
  · exact .inl ⟨rfl, h.low rfl⟩
  · -- Either neighbour is as near to the middle as the other.
    have tie : v = middle m e := h.exact rfl
    rcases Nat.mod_two_eq_zero_or_one m with even | odd
    · exact .inl ⟨by simp [ExtendedMantissa.roundedMantissa, ExtendedMantissa.accuracy,
        Accuracy.roundToNearestEven, even], tie.le⟩
    · exact .inr ⟨by simp [ExtendedMantissa.roundedMantissa, ExtendedMantissa.accuracy,
        Accuracy.roundToNearestEven, odd], tie.ge⟩
  · exact .inr ⟨rfl, h.high rfl⟩

/-! ## Rounding -/

def target (m : Nat) (e : Int) : Int := max ((m.log2 : Int) + 1 + e - 53) (-1074)

theorem shiftToTargetExponent_eq (m : Nat) (e : Int) (accuracy : Accuracy) :
    shiftToTargetExponent Format.binary64 m e accuracy =
      (ExtendedMantissa.ofMantissaAndAccuracy m accuracy >>> (target m e - e).toNat,
        e + (target m e - e).toNat) := rfl

theorem exists_shiftToTargetExponent {r : Nat} {e : Int} (le : r ≤ 2 ^ 53) (minimum : -1074 ≤ e)
    (normal : 2 ^ 52 ≤ r ∨ e = -1074) :
    ∃ m d, Canonical m d ∧ scaled m d = scaled r e ∧
      (shiftToTargetExponent Format.binary64 r e .exact).1.mantissa = m ∧
      (shiftToTargetExponent Format.binary64 r e .exact).2 = d := by
  rw [shiftToTargetExponent_eq]
  -- Only a mantissa that has been rounded up to 54 bits is shifted once more.
  rcases Nat.lt_or_eq_of_le le with short | rfl
  · have bits : r.log2 ≤ 52 := by
      by_cases zero : r = 0
      · simp [zero]
      · have := (Nat.log2_lt zero).mpr short
        omega
    have still : (target r e - e).toNat = 0 := by
      unfold target
      omega
    rw [still]
    exact ⟨r, e, ⟨short, minimum, normal⟩, rfl, rfl, by simp⟩
  · have once : (target (2 ^ 53) e - e).toNat = 1 := by
      unfold target
      rw [Nat.log2_two_pow]
      omega
    rw [once]
    refine ⟨2 ^ 52, e + 1, ⟨by norm_num, by omega, .inl le_rfl⟩, ?_, rfl, rfl⟩
    exact (scaled_mul_two_pow (2 ^ 52) 1 e).symm

def ofParts (s : Sign) (m : Nat) (e : Int) : UnpackedFloat :=
  if h : m = 0 then .zero s else .finite s m e (Nat.pos_of_ne_zero h)

theorem canonical_of_shifted {m n k : Nat} {e : Int} (shift : target n e = e + k)
    (le : m * 2 ^ k ≤ n) (lt : n < (m + 1) * 2 ^ k) : Canonical m (e + k) := by
  have short : m < 2 ^ 53 := by
    have bits : n.log2 + 1 ≤ 53 + k := by
      unfold target at shift
      omega
    have bound : n < 2 ^ 53 * 2 ^ k := by
      rw [← Nat.pow_add]
      exact Nat.lt_log2_self.trans_le (Nat.pow_le_pow_right (by norm_num) bits)
    exact Nat.lt_of_mul_lt_mul_right (le.trans_lt bound)
  have normal : 2 ^ 52 ≤ m ∨ e + k = -1074 := by
    by_cases least : e + k = -1074
    · exact .inr least
    · have bits : n.log2 = 52 + k := by
        unfold target at shift
        omega
      have nonzero : n ≠ 0 := by
        rintro rfl
        simp at bits
        omega
      have bound : 2 ^ 52 * 2 ^ k ≤ n := by
        rw [← Nat.pow_add, ← bits]
        exact Nat.log2_self_le nonzero
      exact .inl (Nat.le_of_lt_succ (Nat.lt_of_mul_lt_mul_right (bound.trans_lt lt)))
  exact ⟨short, shift ▸ le_max_right _ _, normal⟩

theorem exists_truncates_canonical {v : ℚ} {n : Nat} {e : Int} {accuracy : Accuracy}
    (cut : Truncates v e (.ofMantissaAndAccuracy n accuracy)) (below : e ≤ target n e) :
    ∃ t d, Truncates v d t ∧ Canonical t.mantissa d ∧
      shiftToTargetExponent Format.binary64 n e accuracy = (t, d) := by
  obtain ⟨k, shift⟩ : ∃ k : Nat, target n e = e + k := ⟨(target n e - e).toNat, by omega⟩
  have first : shiftToTargetExponent Format.binary64 n e accuracy =
      (ExtendedMantissa.ofMantissaAndAccuracy n accuracy >>> k, e + k) := by
    rw [shiftToTargetExponent_eq, shift]
    simp
  have truncates := cut.shiftRight k
  have lower := cut.le
  have upper := cut.lt
  rw [mantissa_ofMantissaAndAccuracy] at lower upper
  generalize ExtendedMantissa.ofMantissaAndAccuracy n accuracy >>> k = t at first truncates
  have le : t.mantissa * 2 ^ k ≤ n := by
    have := truncates.le.trans_lt upper
    rw [← scaled_mul_two_pow, scaled_lt_scaled] at this
    exact Nat.le_of_lt_succ this
  have lt : n < (t.mantissa + 1) * 2 ^ k := by
    have := lower.trans_lt truncates.lt
    rwa [← scaled_mul_two_pow, scaled_lt_scaled] at this
  exact ⟨t, e + k, truncates, canonical_of_shifted shift le lt, first⟩

theorem Truncates.nearest {v : ℚ} {e : Int} {t : ExtendedMantissa} (h : Truncates v e t)
    (canonical : Canonical t.mantissa e) : Nearest v (scaled t.roundedMantissa e) := by
  intro m d number
  -- No number of full precision lies between a mantissa and the next one.
  have apart : scaled m d ≤ scaled t.mantissa e ∨ scaled (t.mantissa + 1) e ≤ scaled m d :=
    (lt_or_ge _ _).imp_left (number.scaled_le_of_lt canonical.normal)
  have above := h.le
  have below := h.lt
  have rounded := h.roundedMantissa
  rw [middle_eq] at rounded
  rcases rounded with ⟨down, near⟩ | ⟨up, near⟩
  · rw [down, abs_of_nonneg (by linarith), le_abs]
    exact apart.imp (by intro; linarith) (by intro; linarith)
  · rw [up, abs_of_nonpos (by linarith), le_abs]
    exact apart.imp (by intro; linarith) (by intro; linarith)

theorem exists_roundWithAccuracy (s : Sign) {v : ℚ} {n : Nat} {e : Int} {accuracy : Accuracy}
    (cut : Truncates v e (.ofMantissaAndAccuracy n accuracy)) (below : e ≤ target n e) :
    ∃ m d, Canonical m d ∧ Nearest v (scaled m d) ∧
      roundWithAccuracy Format.binary64 s n e accuracy = ofParts s m d := by
  obtain ⟨t, c, truncates, cutoff, first⟩ := exists_truncates_canonical cut below
  have rounded := truncates.roundedMantissa
  have short := cutoff.lt
  obtain ⟨m, d, canonical, same, mantissa, exponent⟩ :=
    exists_shiftToTargetExponent (show t.roundedMantissa ≤ 2 ^ 53 by omega) cutoff.minimum
      (cutoff.normal.imp_left fun full => by omega)
  refine ⟨m, d, canonical, same ▸ truncates.nearest cutoff, ?_⟩
  unfold roundWithAccuracy ofParts
  rw [first]
  dsimp only
  subst mantissa exponent
  rfl

theorem log2_shiftLeft {n : Nat} (h : 0 < n) (k : Nat) : (n <<< k).log2 = n.log2 + k := by
  rw [Nat.shiftLeft_eq, Nat.log2_eq_iff (by positivity)]
  constructor
  · rw [Nat.pow_add]
    exact Nat.mul_le_mul_right _ (Nat.log2_self_le h.ne')
  · rw [show n.log2 + k + 1 = n.log2 + 1 + k by ring, Nat.pow_add]
    exact Nat.mul_lt_mul_of_pos_right Nat.lt_log2_self (by positivity)

theorem exists_round (s : Sign) {n : Nat} (positive : 0 < n) (e : Int) :
    ∃ m d, Canonical m d ∧ Nearest (scaled n e) (scaled m d) ∧
      UnpackedFloat.round Format.binary64 s n e = ofParts s m d := by
  let k := (e - target n e).toNat
  have same : target (n <<< k) (e - k) = target n e := by
    unfold target
    rw [log2_shiftLeft positive]
    push_cast
    ring_nf
  have below : e - k ≤ target (n <<< k) (e - k) := by
    rw [same]
    omega
  obtain ⟨m, d, canonical, nearest, rounded⟩ :=
    exists_roundWithAccuracy s (truncates_exact (n <<< k) (e - k)) below
  have exact : scaled (n <<< k) (e - k) = scaled n e := by
    rw [Nat.shiftLeft_eq, scaled_mul_two_pow, sub_add_cancel]
  exact ⟨m, d, canonical, exact ▸ nearest, rounded⟩

/-! ## The values of rounded numbers -/

/-- Rounding `v` to `r` crosses no float. -/
def Between (v r : ℚ) : Prop :=
  ∀ z : Float, z.isNaN = false → (value z ≤ v → value z ≤ r) ∧ (v ≤ value z → r ≤ value z)

theorem Between.nonneg {v r : ℚ} (h : Between v r) (nonneg : 0 ≤ v) : 0 ≤ r := by
  simpa using (h 0.0 isNaN_zero).1 (by simpa using nonneg)

theorem Between.abs_le_value {v r : ℚ} (h : Between v r) {z : Float} (number : z.isNaN = false)
    (bound : |v| ≤ value z) : |r| ≤ value z := by
  obtain ⟨lower, upper⟩ := abs_le.mp bound
  refine abs_le.mpr ⟨?_, (h z number).2 upper⟩
  have := (h (-z) (by rwa [isNaN_neg])).1
  rw [value_neg] at this
  exact this lower

def Closest (v r : ℚ) : Prop := ∀ z : Float, z.isNaN = false → |v - r| ≤ |v - value z|

theorem Closest.refl (v : ℚ) : Closest v v := fun z _ => by
  rw [sub_self, abs_zero]
  exact abs_nonneg _

theorem Closest.neg {v r : ℚ} (h : Closest v r) : Closest (-v) (-r) := by
  intro z number
  have near := h (-z) (by rwa [isNaN_neg])
  rw [value_neg] at near
  rwa [neg_sub_neg, abs_sub_comm, ← abs_neg (-v - value z), neg_sub', neg_neg]

theorem Closest.le_double {v r : ℚ} (h : Closest v r) (nonneg : 0 ≤ v) : r ≤ 2 * v := by
  have near := h 0.0 isNaN_zero
  rw [value_zero, sub_zero, abs_of_nonneg nonneg] at near
  linarith [neg_abs_le (v - r)]

theorem Closest.between {v r : ℚ} (h : Closest v r) : Between v r := by
  intro z number
  have near := h z number
  constructor
  · intro below
    by_contra crossed
    rw [abs_of_nonneg (by linarith), abs_of_nonneg (by linarith)] at near
    linarith
  · intro above
    by_contra crossed
    rw [abs_of_nonpos (by linarith), abs_of_nonpos (by linarith)] at near
    linarith

theorem exists_canonical {x : UnpackedFloat} (h : Fits x) (nonneg : 0 ≤ valueOf x) :
    ∃ m e, Canonical m e ∧ valueOf x = scaled m e ∧ valueOf x ≤ limit := by
  have zero : ∃ m e, Canonical m e ∧ (0 : ℚ) = scaled m e ∧ 0 ≤ limit :=
    ⟨0, -1074, canonical_zero, (scaled_zero _).symm, limit_pos.le⟩
  cases x with
  | notANumber => exact zero
  | zero s => exact zero
  | infinity s =>
      cases s with
      | negative => exact absurd nonneg (not_le.mpr (neg_lt_zero.mpr limit_pos))
      | positive => exact ⟨2 ^ 52, 972, canonical_limit, scaled_limit.symm, le_rfl⟩
  | finite s m e positive =>
      cases s with
      | negative => exact absurd nonneg (not_le.mpr (neg_lt_zero.mpr (scaled_pos positive e)))
      | positive => exact ⟨m, e, h.1, rfl, (h.1.scaled_lt_limit h.2).le⟩

theorem isNaN_unpack_pack_ofParts (s : Sign) {m : Nat} {e : Int} (h : Canonical m e) :
    (unpack Format.binary64 (pack Format.binary64 (ofParts s m e))).isNaN = false := by
  unfold ofParts
  split
  · rw [unpack_pack_zero]
    rfl
  next nonzero =>
    by_cases small : e ≤ 971
    · rw [unpack_pack_finite (Nat.pos_of_ne_zero nonzero) h small]
      rfl
    · rw [unpack_pack_large (Nat.pos_of_ne_zero nonzero) (not_le.mp small)]
      rfl

theorem valueOf_unpack_pack_ofParts (s : Sign) {m : Nat} {e : Int} (h : Canonical m e) :
    valueOf (unpack Format.binary64 (pack Format.binary64 (ofParts s m e))) =
      signed s (min (scaled m e) limit) := by
  unfold ofParts
  split
  next zero =>
    rw [unpack_pack_zero, zero, scaled_zero, min_eq_left limit_pos.le]
    cases s
    · exact neg_zero.symm
    · rfl
  next nonzero =>
    by_cases small : e ≤ 971
    · rw [unpack_pack_finite (Nat.pos_of_ne_zero nonzero) h small,
        min_eq_left (h.scaled_lt_limit small).le]
      rfl
    · rw [unpack_pack_large (Nat.pos_of_ne_zero nonzero) (not_le.mp small),
        min_eq_right (h.limit_le_scaled (not_le.mp small))]
      rfl

theorem Nearest.closest {v r : ℚ} (h : Nearest v r) (nonneg : 0 ≤ v) :
    Closest v (min r limit) := by
  -- What rounds beyond the range is at least as far from zero as infinity is.
  have capped : ∀ m e, Canonical m e → scaled m e ≤ limit → |v - min r limit| ≤ |v - scaled m e| := by
    intro m e canonical bound
    rcases le_total r limit with inside | beyond
    · rw [min_eq_left inside]
      exact h m e canonical
    · have far := h _ _ canonical_limit
      rw [scaled_limit] at far
      rw [min_eq_right beyond]
      rcases le_total v limit with small | large
      · rw [abs_sub_comm v r, abs_sub_comm v limit, abs_of_nonneg (by linarith),
          abs_of_nonneg (by linarith)] at far
        have : r = limit := le_antisymm (by linarith) beyond
        exact this ▸ h m e canonical
      · rw [abs_of_nonneg (by linarith), abs_of_nonneg (by linarith)]
        linarith
  intro z number
  by_cases negative : value z < 0
  · have near := capped 0 (-1074) canonical_zero (by simpa using limit_pos.le)
    rw [scaled_zero, sub_zero, abs_of_nonneg nonneg] at near
    rw [abs_of_nonneg (a := v - value z) (by linarith)]
    linarith
  · obtain ⟨m, e, canonical, same, bound⟩ := exists_canonical (fits z) (not_lt.mp negative)
    rw [value, same]
    exact capped m e canonical (same ▸ bound)

theorem closest_ofParts (s : Sign) {v : ℚ} {m : Nat} {e : Int} (nonneg : 0 ≤ v)
    (canonical : Canonical m e) (nearest : Nearest v (scaled m e)) :
    let u := unpack Format.binary64 (pack Format.binary64 (ofParts s m e))
    u.isNaN = false ∧ Closest (signed s v) (valueOf u) := by
  have closest := nearest.closest nonneg
  simp only [valueOf_unpack_pack_ofParts s canonical, isNaN_unpack_pack_ofParts s canonical,
    true_and]
  cases s with
  | negative => exact closest.neg
  | positive => exact closest

theorem closest_round (s : Sign) {n : Nat} (positive : 0 < n) (e : Int) :
    let u := unpack Format.binary64
      (pack Format.binary64 (UnpackedFloat.round Format.binary64 s n e))
    u.isNaN = false ∧ Closest (signed s (scaled n e)) (valueOf u) := by
  obtain ⟨m, d, canonical, nearest, rounded⟩ := exists_round s positive e
  rw [rounded]
  exact closest_ofParts s (scaled_nonneg n e) canonical nearest

theorem closest_roundWithAccuracy (s : Sign) {v : ℚ} {n : Nat} {e : Int} {accuracy : Accuracy}
    (nonneg : 0 ≤ v) (cut : Truncates v e (.ofMantissaAndAccuracy n accuracy))
    (below : e ≤ target n e) :
    let u := unpack Format.binary64
      (pack Format.binary64 (roundWithAccuracy Format.binary64 s n e accuracy))
    u.isNaN = false ∧ Closest (signed s v) (valueOf u) := by
  obtain ⟨m, d, canonical, nearest, rounded⟩ := exists_roundWithAccuracy s cut below
  rw [rounded]
  exact closest_ofParts s nonneg canonical nearest

theorem closest_normalize (n e : Int) (zeroSign : Sign) :
    let u := unpack Format.binary64
      (pack Format.binary64 (UnpackedFloat.normalize Format.binary64 n e zeroSign))
    u.isNaN = false ∧ Closest (n * 2 ^ e) (valueOf u) := by
  unfold UnpackedFloat.normalize
  rcases lt_trichotomy n 0 with negative | rfl | positive
  · rw [compare_lt_iff_lt.mpr negative]
    have closest := closest_round .negative (show 0 < (-n).toNat by omega) e
    have size : (((-n).toNat : Nat) : ℚ) = -n := by
      have : (((-n).toNat : Nat) : ℤ) = -n := Int.toNat_of_nonneg (by omega)
      exact_mod_cast this
    have same : signed .negative (scaled (-n).toNat e) = n * 2 ^ e := by
      rw [signed, scaled, size]
      ring
    rwa [same] at closest
  · rw [compare_eq_iff_eq.mpr rfl]
    dsimp only
    rw [unpack_pack_zero, Int.cast_zero, zero_mul]
    exact ⟨rfl, Closest.refl 0⟩
  · rw [compare_gt_iff_gt.mpr positive]
    have closest := closest_round .positive (show 0 < n.toNat by omega) e
    have size : ((n.toNat : Nat) : ℚ) = n := by
      have : ((n.toNat : Nat) : ℤ) = n := Int.toNat_of_nonneg positive.le
      exact_mod_cast this
    have same : signed .positive (scaled n.toNat e) = n * 2 ^ e := by
      rw [signed, scaled, size]
    rwa [same] at closest

theorem between_normalize (n e : Int) (zeroSign : Sign) :
    let u := unpack Format.binary64
      (pack Format.binary64 (UnpackedFloat.normalize Format.binary64 n e zeroSign))
    u.isNaN = false ∧ Between (n * 2 ^ e) (valueOf u) :=
  (closest_normalize n e zeroSign).imp_right Closest.between

/-! ## Sums -/

theorem cast_apply (s : Sign) (n : Nat) (e : Int) :
    ((s.apply n : Int) : ℚ) * 2 ^ e = signed s (scaled n e) := by
  cases s <;> simp [Sign.apply, signed, scaled]

theorem scaled_decreaseExponent (m : Nat) {e d : Int} (h : d ≤ e) :
    scaled (decreaseExponent m e d).1 d = scaled m e := by
  change scaled (m <<< (e - d).toNat) d = _
  rw [Nat.shiftLeft_eq, scaled_mul_two_pow, Int.toNat_of_nonneg (by omega)]
  congr 1
  omega

theorem closest_add_finite {m n : Nat} (hm : 0 < m) (hn : 0 < n) (e d : Int) (s t : Sign) :
    let u := unpack Format.binary64 (pack Format.binary64
      (UnpackedFloat.add Format.binary64 (.finite s m e hm) (.finite t n d hn)))
    u.isNaN = false ∧ Closest (signed s (scaled m e) + signed t (scaled n d)) (valueOf u) := by
  have exact : ((s.apply (decreaseExponent m e (min e d)).1 +
      t.apply (decreaseExponent n d (min e d)).1 : Int) : ℚ) * 2 ^ (min e d) =
      signed s (scaled m e) + signed t (scaled n d) := by
    rw [Int.cast_add, add_mul, cast_apply, cast_apply,
      scaled_decreaseExponent m (min_le_left e d), scaled_decreaseExponent n (min_le_right e d)]
  have closest := closest_normalize (s.apply (decreaseExponent m e (min e d)).1 +
    t.apply (decreaseExponent n d (min e d)).1) (min e d) .positive
  rw [exact] at closest
  exact closest

theorem closest_add_unpacked {x y : UnpackedFloat} (hx : Fits x) (hy : Fits y)
    (fx : x.isFinite = true) (fy : y.isFinite = true) :
    let u := unpack Format.binary64 (pack Format.binary64 (UnpackedFloat.add Format.binary64 x y))
    u.isNaN = false ∧ Closest (valueOf x + valueOf y) (valueOf u) := by
  obtain ⟨s, rfl⟩ | ⟨s, m, e, hm, rfl⟩ := zero_or_finite fx
  · rw [show valueOf (.zero s) = 0 from rfl, zero_add]
    obtain ⟨t, rfl⟩ | ⟨t, n, d, hn, rfl⟩ := zero_or_finite fy
    · have zero : ∃ r, UnpackedFloat.add Format.binary64 (.zero s) (.zero t) = .zero r := by
        cases s <;> cases t <;> exact ⟨_, rfl⟩
      obtain ⟨r, sum⟩ := zero
      simp only [sum, unpack_pack_zero]
      exact ⟨rfl, Closest.refl 0⟩
    · have sum : UnpackedFloat.add Format.binary64 (.zero s) (.finite t n d hn) =
          .finite t n d hn := rfl
      simp only [sum, unpack_pack hy]
      exact ⟨rfl, Closest.refl _⟩
  · obtain ⟨t, rfl⟩ | ⟨t, n, d, hn, rfl⟩ := zero_or_finite fy
    · rw [show valueOf (.zero t) = 0 from rfl, add_zero]
      have sum : UnpackedFloat.add Format.binary64 (.finite s m e hm) (.zero t) =
          .finite s m e hm := rfl
      simp only [sum, unpack_pack hx]
      exact ⟨rfl, Closest.refl _⟩
    · exact closest_add_finite hm hn e d s t

variable {x y z : Float}

theorem closest_add (hx : x.isFinite = true) (hy : y.isFinite = true) :
    (x + y).isNaN = false ∧ Closest (value x + value y) (value (x + y)) :=
  closest_add_unpacked (fits x) (fits y) hx hy

theorem between_add (hx : x.isFinite = true) (hy : y.isFinite = true) :
    (x + y).isNaN = false ∧ Between (value x + value y) (value (x + y)) :=
  (closest_add hx hy).imp_right Closest.between

theorem le_value_add (hx : x.isFinite = true) (hy : y.isFinite = true) (hz : z.isNaN = false)
    (h : value z ≤ value x + value y) : value z ≤ value (x + y) :=
  ((between_add hx hy).2 z hz).1 h

end AnimatedCanvas.Binary64
