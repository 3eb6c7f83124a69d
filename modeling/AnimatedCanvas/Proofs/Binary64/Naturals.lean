import AnimatedCanvas.Decimal.Literal
import AnimatedCanvas.Proofs.Binary64.Arithmetic

namespace AnimatedCanvas.Binary64

open Float.Model (UnpackedFloat Format)
open Float.Model.UnpackedFloat

theorem shiftRight_add (t : ExtendedMantissa) (k j : Nat) : t >>> (k + j) = t >>> k >>> j := by
  induction j with
  | zero => rfl
  | succ j ih => exact congrArg ExtendedMantissa.shiftRightOne ih

theorem shiftRight_shiftLeft (m k : Nat) :
    ExtendedMantissa.ofMantissaAndAccuracy (m <<< k) .exact >>> k =
      .ofMantissaAndAccuracy m .exact := by
  induction k generalizing m with
  | zero => rfl
  | succ k ih =>
      rw [shiftRight_add, Nat.add_comm, Nat.shiftLeft_add, ih]
      have half : m <<< 1 / 2 = m := by
        rw [Nat.shiftLeft_eq]
        omega
      have even : m <<< 1 % 2 = 0 := by
        rw [Nat.shiftLeft_eq]
        omega
      change ExtendedMantissa.shiftRightOne ⟨m <<< 1, false, false⟩ = ⟨m, false, false⟩
      simp [ExtendedMantissa.shiftRightOne, half, even]

theorem target_shiftLeft {m : Nat} (positive : 0 < m) (k : Nat) :
    target (m <<< k) (-k) = target m 0 := by
  unfold target
  rw [log2_shiftLeft positive]
  push_cast
  ring_nf

theorem roundWithAccuracy_shiftLeft (s : Sign) {m : Nat} (long : 2 ^ 53 ≤ m) (k : Nat) :
    roundWithAccuracy Format.binary64 s (m <<< k) (-k) .exact =
      roundWithAccuracy Format.binary64 s m 0 .exact := by
  have bits : 53 ≤ m.log2 := (Nat.le_log2 (by omega)).mpr long
  have positive : 0 < target m 0 := by
    unfold target
    omega
  have same : shiftToTargetExponent Format.binary64 (m <<< k) (-k) .exact =
      shiftToTargetExponent Format.binary64 m 0 .exact := by
    rw [shiftToTargetExponent_eq, shiftToTargetExponent_eq, target_shiftLeft (by omega)]
    have steps : (target m 0 - -k).toNat = k + (target m 0 - 0).toNat := by omega
    rw [steps, shiftRight_add, shiftRight_shiftLeft]
    congr 1
    omega
  unfold roundWithAccuracy
  rw [same]

theorem round_of_long (s : Sign) {m : Nat} (long : 2 ^ 53 ≤ m) :
    UnpackedFloat.round Format.binary64 s m 0 =
      roundWithAccuracy Format.binary64 s m 0 .exact := by
  have bits : 53 ≤ m.log2 := (Nat.le_log2 (by omega)).mpr long
  have above : (0 - target m 0).toNat = 0 := by
    unfold target
    omega
  have still : decreaseExponent m 0 (target m 0) = (m, 0) := by
    change (m <<< (0 - target m 0).toNat, (0 : Int) - ((0 - target m 0).toNat : Nat)) = _
    rw [above]
    rfl
  change (match decreaseExponent m 0 (target m 0) with
    | (m, e) => roundWithAccuracy Format.binary64 s m e .exact) = _
  rw [still]

variable {n : Nat}

theorem between_toFloat (small : n < 2 ^ 64) :
    n.toUInt64.toFloat.isNaN = false ∧ Between n (value n.toUInt64.toFloat) := by
  have between := between_normalize (n.toUInt64.toNat : Int) 0 .positive
  have same : (n.toUInt64.toNat : Int) = n := congrArg Nat.cast (Nat.mod_eq_of_lt small)
  rwa [zpow_zero, mul_one, show ((n.toUInt64.toNat : Int) : ℚ) = n by rw [same]; rfl] at between

theorem isFinite_toFloat (small : n < 2 ^ 64) : n.toUInt64.toFloat.isFinite = true := by
  obtain ⟨number, between⟩ := between_toFloat small
  obtain ⟨z, finite, same⟩ := exists_isFinite_eq_two_zpow (k := 64) (by norm_num) (by norm_num)
  have upper : (n : ℚ) ≤ value z := by
    rw [same]
    exact_mod_cast small.le
  exact isFinite_of_nonneg_of_le number (between.nonneg n.cast_nonneg) finite
    ((between z (isNaN_of_isFinite finite)).2 upper)

theorem value_mul_one {x : Float} (finite : x.isFinite = true) :
    (x * 1.0).isNaN = false ∧ value (x * 1.0) = value x := by
  obtain ⟨number, between⟩ := between_mul finite (y := 1.0) rfl
  rw [value_one, mul_one] at between
  obtain ⟨lower, upper⟩ := between x (isNaN_of_isFinite finite)
  exact ⟨number, le_antisymm (upper le_rfl) (lower le_rfl)⟩

theorem ofScientific_of_long (long : 2 ^ 53 ≤ n) (small : n < 2 ^ 64) :
    (⟨Float.Model.ofScientific n 0⟩ : Float) = n.toUInt64.toFloat := by
  have positive : 0 < n := by omega
  let k := Format.binary64.mantissaBits
  have shifted : UnpackedFloat.ofScientific Format.binary64 n 0 =
      roundWithAccuracy Format.binary64 .positive (n <<< k) (-k) .exact := by
    unfold UnpackedFloat.ofScientific
    rw [dif_neg positive.ne', if_neg (by norm_num),
      if_neg (not_lt.mpr (neg_nonpos.mpr (by positivity))), if_pos le_rfl]
    change roundWithAccuracy Format.binary64 .positive (n <<< k * 10 ^ Int.toNat 0) (-k + 0)
      .exact = _
    rw [show 10 ^ Int.toNat 0 = 1 from rfl, mul_one, add_zero]
  have rounded : UnpackedFloat.ofUInt64 Format.binary64 n.toUInt64 =
      UnpackedFloat.round Format.binary64 .positive n 0 := by
    change UnpackedFloat.normalize Format.binary64 (n.toUInt64.toNat : Int) 0 .positive = _
    rw [show n.toUInt64.toNat = n from Nat.mod_eq_of_lt small]
    unfold UnpackedFloat.normalize
    rw [compare_gt_iff_gt.mpr (by omega)]
    rfl
  change (⟨Float.Model.pack (UnpackedFloat.ofScientific Format.binary64 n 0)⟩ : Float) =
    ⟨Float.Model.pack (UnpackedFloat.ofUInt64 Format.binary64 n.toUInt64)⟩
  rw [shifted, rounded, round_of_long _ long, ← roundWithAccuracy_shiftLeft .positive long k]

theorem value_ofScientific (small : n < 2 ^ 64) :
    (Decimal.ofScientific n 0).isNaN = false ∧
      value (Decimal.ofScientific n 0) = value n.toUInt64.toFloat := by
  have number := isNaN_of_isFinite (isFinite_toFloat small)
  obtain rfl | positive := Nat.eq_zero_or_pos n
  · exact ⟨rfl, rfl⟩
  have bits : n.log2 < 64 := (Nat.log2_lt positive.ne').mpr small
  have literal : Decimal.ofScientific n 0 = Float.ofScientific n false 0 := by
    unfold Decimal.ofScientific
    dsimp only
    rw [if_neg positive.ne', if_neg (by omega), if_neg (by omega)]
    rfl
  rw [literal]
  unfold Float.ofScientific
  by_cases short : n < 2 ^ 53
  · rw [dif_pos ⟨short, by norm_num⟩]
    exact value_mul_one (isFinite_toFloat small)
  · rw [dif_neg (fun both => short both.1)]
    change Float.isNaN ⟨Float.Model.ofScientific n 0⟩ = false ∧
      value ⟨Float.Model.ofScientific n 0⟩ = value n.toUInt64.toFloat
    rw [ofScientific_of_long (not_lt.mp short) small]
    exact ⟨number, rfl⟩

end AnimatedCanvas.Binary64
