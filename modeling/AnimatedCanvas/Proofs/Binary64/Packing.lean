import Mathlib
import AnimatedCanvas.Proofs.Binary64.Canonical

namespace AnimatedCanvas.Binary64

open Float.Model (UnpackedFloat Format)
open Float.Model.UnpackedFloat

def Fits : UnpackedFloat → Prop
  | .finite _ m e _ => Canonical m e ∧ e ≤ 971
  | _ => True

theorem toNat_unpackExponent (b : BitVec 64) :
    (@unpackExponent Format.binary64 b).toNat = b.toNat / 2 ^ 52 % 2 ^ 11 := by
  change (BitVec.extractLsb 62 52 b).toNat = _
  rw [BitVec.extractLsb_toNat, Nat.shiftRight_eq_div_pow]

theorem toNat_unpackMantissa (b : BitVec 64) :
    (@unpackMantissa Format.binary64 b).toNat = b.toNat % 2 ^ 52 := by
  change (BitVec.extractLsb 51 0 b).toNat = _
  rw [BitVec.extractLsb_toNat, Nat.shiftRight_zero]

theorem toNat_unpackSign (b : BitVec 64) :
    (@unpackSign Format.binary64 b).toNat = b.toNat / 2 ^ 63 % 2 := by
  change (BitVec.extractLsb 63 63 b).toNat = _
  rw [BitVec.extractLsb_toNat, Nat.shiftRight_eq_div_pow]

theorem toNat_implicit (m : BitVec 52) : (1#1 ++ m).toNat = 2 ^ 52 + m.toNat := by
  rw [BitVec.toNat_append, ← Nat.shiftLeft_add_eq_or_of_lt m.isLt]
  rfl

theorem fits_unpack (b : BitVec 64) : Fits (unpack Format.binary64 b) := by
  have mantissa : (@unpackMantissa Format.binary64 b).toNat < 2 ^ 52 := BitVec.isLt _
  have exponent : (@unpackExponent Format.binary64 b).toNat < 2 ^ 11 := BitVec.isLt _
  have length : (1#1 ++ @unpackMantissa Format.binary64 b).toNat =
      2 ^ 52 + (@unpackMantissa Format.binary64 b).toNat := toNat_implicit _
  have bias : Format.binary64.exponentBias = 1023 := rfl
  unfold unpack
  dsimp only
  split
  · split <;> trivial
  next notMax =>
    have below : (@unpackExponent Format.binary64 b).toNat ≠ 2047 :=
      fun same => notMax (BitVec.eq_of_toNat_eq same)
    split
    next isZero =>
      split
      · trivial
      · have least : (@unpackExponent Format.binary64 b).toNat = 0 := congrArg BitVec.toNat isZero
        refine ⟨⟨?_, ?_, .inr ?_⟩, ?_⟩ <;> omega
    next notZero =>
      have above : (@unpackExponent Format.binary64 b).toNat ≠ 0 :=
        fun same => notZero (BitVec.eq_of_toNat_eq same)
      refine ⟨⟨?_, ?_, .inl ?_⟩, ?_⟩ <;> omega

theorem unpackSign_of_unsigned {b : BitVec 64} (unsigned : b.toNat < 2 ^ 63) :
    @unpackSign Format.binary64 b = 0#1 := by
  apply BitVec.eq_of_toNat_eq
  rw [toNat_unpackSign, BitVec.toNat_ofNat]
  omega

theorem unpack_of_exponent {b : BitVec 64} {k : Nat} (positive : b.toNat < 2 ^ 63)
    (exponent : b.toNat / 2 ^ 52 = k) (normal : 0 < k) (small : k < 2047) :
    ∃ positive, unpack Format.binary64 b =
      .finite .positive (2 ^ 52 + b.toNat % 2 ^ 52) (k - 1075) positive := by
  have field : (@unpackExponent Format.binary64 b).toNat = k := by
    rw [toNat_unpackExponent]
    omega
  have sign := unpackSign_of_unsigned positive
  have mantissa : (1#1 ++ @unpackMantissa Format.binary64 b).toNat = 2 ^ 52 + b.toNat % 2 ^ 52 := by
    rw [← toNat_unpackMantissa]
    exact toNat_implicit _
  refine ⟨by omega, ?_⟩
  unfold unpack
  dsimp only
  rw [if_neg, if_neg]
  · simp only [mantissa, sign, field]
    rfl
  · intro isZero
    have : (@unpackExponent Format.binary64 b).toNat = 0 := congrArg BitVec.toNat isZero
    omega
  · intro isMax
    have : (@unpackExponent Format.binary64 b).toNat = 2047 := congrArg BitVec.toNat isMax
    omega

theorem unpack_packComponents (s : Sign) (e : BitVec 11) (m : BitVec 52) :
    unpack Format.binary64 (packComponents Format.binary64 s e m) =
      if e = -1#11 then (if m = 0#52 then .infinity s else .notANumber)
      else if e = 0#11 then
        (if h : m = 0#52 then .zero s
        else .finite s m.toNat (-1074) (by simpa [BitVec.toNat_pos, BitVec.pos_iff_ne_zero] using h))
      else .finite s (1#1 ++ m).toNat (e.toNat - 1075) (by rw [toNat_implicit]; omega) := by
  unfold unpack
  simp only [unpackMantissa_packComponents, unpackExponent_packComponents,
    unpackSign_packComponents, Sign.ofBitVec_toBitVec]
  split
  · rfl
  · split
    next isZero => subst isZero; rfl
    next => rfl

theorem unpack_pack_infinity (s : Sign) :
    unpack Format.binary64 (pack Format.binary64 (.infinity s)) = .infinity s := by
  change unpack Format.binary64 (packComponents Format.binary64 s (-1#11) 0#52) = _
  rw [unpack_packComponents, if_pos rfl, if_pos rfl]

theorem unpack_pack_zero (s : Sign) :
    unpack Format.binary64 (pack Format.binary64 (.zero s)) = .zero s := by
  change unpack Format.binary64 (packComponents Format.binary64 s 0#11 0#52) = _
  rw [unpack_packComponents, if_neg (by decide), if_pos rfl, dif_pos rfl]

theorem unpack_pack_notANumber :
    unpack Format.binary64 (pack Format.binary64 .notANumber) = .notANumber := by
  change unpack Format.binary64 (packComponents Format.binary64 .positive (-1#11) (1#52 <<< 51)) = _
  rw [unpack_packComponents, if_pos rfl, if_neg (by decide)]

variable {s : Sign} {m : Nat} {e : Int}

theorem pack_finite (h : 0 < m) : pack Format.binary64 (.finite s m e h) =
    if 2 ^ 11 ≤ (e + 1023 + 52).toNat + 1 then packedInfinity Format.binary64 s
    else if m.log2 + 1 = 53 then
      packComponents Format.binary64 s (BitVec.ofNat 11 (e + 1023 + 52).toNat) (BitVec.ofNat 52 m)
    else packComponents Format.binary64 s 0#11 (BitVec.ofNat 52 m) := rfl

theorem unpack_pack_large (h : 0 < m) (large : 971 < e) :
    unpack Format.binary64 (pack Format.binary64 (.finite s m e h)) = .infinity s := by
  rw [pack_finite, if_pos (by omega)]
  exact unpack_pack_infinity s

theorem unpack_pack_normal (h : 0 < m) (canonical : Canonical m e) (small : e ≤ 971)
    (full : 2 ^ 52 ≤ m) :
    unpack Format.binary64 (pack Format.binary64 (.finite s m e h)) = .finite s m e h := by
  have least := canonical.minimum
  have short := canonical.lt
  have bits : m.log2 < 53 := (Nat.log2_lt h.ne').mpr short
  have length : m.log2 + 1 = 53 := by
    have := (Nat.le_log2 h.ne').mpr full
    omega
  have exponent : (BitVec.ofNat 11 (e + 1023 + 52).toNat).toNat = (e + 1075).toNat := by
    rw [BitVec.toNat_ofNat, Nat.mod_eq_of_lt (by omega)]
    omega
  have mantissa : (1#1 ++ BitVec.ofNat 52 m).toNat = m := by
    rw [toNat_implicit, BitVec.toNat_ofNat]
    omega
  rw [pack_finite, if_neg (by omega), if_pos length, unpack_packComponents, if_neg, if_neg]
  · simp only [exponent, mantissa]
    congr 1
    omega
  · intro isZero
    have := congrArg BitVec.toNat isZero
    rw [exponent, BitVec.toNat_ofNat] at this
    omega
  · intro isMax
    have : (BitVec.ofNat 11 (e + 1023 + 52).toNat).toNat = 2047 := congrArg BitVec.toNat isMax
    omega

theorem unpack_pack_subnormal (h : 0 < m) (short : m < 2 ^ 52) :
    unpack Format.binary64 (pack Format.binary64 (.finite s m (-1074) h)) =
      .finite s m (-1074) h := by
  have length : ¬ m.log2 + 1 = 53 := by
    have := (Nat.log2_lt h.ne').mpr short
    omega
  have mantissa : (BitVec.ofNat 52 m).toNat = m := by
    rw [BitVec.toNat_ofNat, Nat.mod_eq_of_lt short]
  rw [pack_finite, if_neg (by omega), if_neg length, unpack_packComponents, if_neg (by decide),
    if_pos rfl, dif_neg]
  · simp only [mantissa]
  · intro isZero
    have := congrArg BitVec.toNat isZero
    rw [mantissa, BitVec.toNat_ofNat] at this
    omega

theorem unpack_pack_finite (h : 0 < m) (canonical : Canonical m e) (small : e ≤ 971) :
    unpack Format.binary64 (pack Format.binary64 (.finite s m e h)) = .finite s m e h := by
  by_cases full : 2 ^ 52 ≤ m
  · exact unpack_pack_normal h canonical small full
  · obtain rfl := canonical.normal.resolve_left full
    exact unpack_pack_subnormal h (Nat.lt_of_not_le full)

theorem unpack_pack {x : UnpackedFloat} (h : Fits x) :
    unpack Format.binary64 (pack Format.binary64 x) = x := by
  cases x with
  | infinity s => exact unpack_pack_infinity s
  | notANumber => exact unpack_pack_notANumber
  | zero s => exact unpack_pack_zero s
  | finite s m e positive => exact unpack_pack_finite positive h.1 h.2

end AnimatedCanvas.Binary64
