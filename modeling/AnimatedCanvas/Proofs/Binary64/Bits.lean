import AnimatedCanvas.Proofs.Binary64.Order

namespace AnimatedCanvas.Binary64

open Float.Model (UnpackedFloat Format)
open Float.Model.UnpackedFloat

def IsUnsigned (x : Float) : Prop := x.toBits.toNat < 2 ^ 63

variable {m n : Nat} {d e : Int}

theorem Canonical.bits_le (hm : Canonical m d) (hn : Canonical n e) (le : scaled m d ≤ scaled n e) :
    (d + 1074).toNat * 2 ^ 52 + m ≤ (e + 1074).toNat * 2 ^ 52 + n := by
  have short := hm.lt
  have minimum := hm.minimum
  have minimum' := hn.minimum
  rcases lt_trichotomy d e with less | rfl | greater
  · -- The larger exponent leaves no room below a full mantissa.
    have full : 2 ^ 52 ≤ n := hn.normal.resolve_right (by omega)
    omega
  · have := scaled_le_scaled.mp le
    omega
  · exact absurd le (hn.scaled_lt_of_lt hm greater).not_ge

theorem exists_canonical_of_bits {b : BitVec 64} (unsigned : b.toNat < 2 ^ 63)
    (number : (unpack Format.binary64 b).isNaN = false) : ∃ m e, Canonical m e ∧
      valueOf (unpack Format.binary64 b) = scaled m e ∧ b.toNat = (e + 1074).toNat * 2 ^ 52 + m := by
  have exponent := toNat_unpackExponent b
  have mantissa := toNat_unpackMantissa b
  have sign := unpackSign_of_unsigned unsigned
  have length := toNat_implicit (@unpackMantissa Format.binary64 b)
  have bias : Format.binary64.exponentBias = 1023 := rfl
  unfold unpack at number ⊢
  dsimp only at number ⊢
  rw [sign] at number ⊢
  split at number
  next isMax =>
    have : (@unpackExponent Format.binary64 b).toNat = 2047 := congrArg BitVec.toNat isMax
    split at number
    next isZero =>
      have : (@unpackMantissa Format.binary64 b).toNat = 0 := congrArg BitVec.toNat isZero
      rw [if_pos isMax, if_pos isZero]
      exact ⟨2 ^ 52, 972, canonical_limit, scaled_limit.symm, by omega⟩
    next => cases number
  next notMax =>
    have below : (@unpackExponent Format.binary64 b).toNat ≠ 2047 :=
      fun same => notMax (BitVec.eq_of_toNat_eq same)
    rw [if_neg notMax]
    split
    next isZero =>
      have : (@unpackExponent Format.binary64 b).toNat = 0 := congrArg BitVec.toNat isZero
      split
      next none =>
        have : (@unpackMantissa Format.binary64 b).toNat = 0 := congrArg BitVec.toNat none
        exact ⟨0, -1074, canonical_zero, (scaled_zero _).symm, by omega⟩
      next => refine ⟨_, _, ⟨?_, ?_, .inr ?_⟩, rfl, ?_⟩ <;> omega
    next notZero =>
      have above : (@unpackExponent Format.binary64 b).toNat ≠ 0 :=
        fun same => notZero (BitVec.eq_of_toNat_eq same)
      refine ⟨_, _, ⟨?_, ?_, .inl ?_⟩, rfl, ?_⟩ <;> omega

variable {x y : Float}

theorem toBits_le_toBits (hx : IsUnsigned x) (hy : IsUnsigned y) (le : x ≤ y) :
    x.toBits.toNat ≤ y.toBits.toNat := by
  obtain ⟨number, number', le⟩ := le_iff.mp le
  obtain ⟨m, d, canonical, same, bits⟩ := exists_canonical_of_bits hx number
  obtain ⟨n, e, canonical', same', bits'⟩ := exists_canonical_of_bits hy number'
  change x.toBits.toNat = _ at bits
  change y.toBits.toNat = _ at bits'
  rw [bits, bits']
  exact canonical.bits_le canonical' (same.symm.trans_le (le.trans_eq same'))

theorem isUnsigned_of_pos (positive : 0 < value x) : IsUnsigned x := by
  by_contra signed
  have sign : @unpackSign Format.binary64 x.toBits.toBitVec = 1#1 := by
    apply BitVec.eq_of_toNat_eq
    rw [toNat_unpackSign, BitVec.toNat_ofNat]
    have := x.toBits.toNat_lt
    change ¬ x.toBits.toNat < 2 ^ 63 at signed
    change x.toBits.toNat / 2 ^ 63 % 2 = _
    omega
  have nonpos : valueOf (unpack Format.binary64 x.toBits.toBitVec) ≤ 0 := by
    unfold unpack
    dsimp only
    rw [sign]
    split
    · split
      · exact neg_nonpos.mpr limit_pos.le
      · exact le_rfl
    · split
      · split
        · exact le_rfl
        · exact neg_nonpos.mpr (scaled_nonneg _ _)
      · exact neg_nonpos.mpr (scaled_nonneg _ _)
  exact nonpos.not_gt positive

end AnimatedCanvas.Binary64
