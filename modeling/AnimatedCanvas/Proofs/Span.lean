import AnimatedCanvas.Proofs.Binary64.Arithmetic
import AnimatedCanvas.Proofs.Config.Field

namespace AnimatedCanvas

open Binary64

namespace Random

theorem toNat_unitBits (word : UInt64) :
    ((0x3ff0000000000000 : UInt64) ||| (word >>> 12)).toNat = 1023 * 2 ^ 52 + word.toNat / 4096 := by
  have small : word.toNat / 4096 < 2 ^ 52 := by
    have := word.toNat_lt
    omega
  rw [UInt64.toNat_or, UInt64.toNat_shiftRight]
  change 1023 * 2 ^ 52 ||| word.toNat >>> 12 = _
  rw [Nat.shiftRight_eq_div_pow, ← Nat.shiftLeft_eq, Nat.shiftLeft_add_eq_or_of_lt small]

theorem value_unitOf (word : UInt64) :
    (unitOf word).isFinite = true ∧
      value (unitOf word) = scaled (2 ^ 52 + word.toNat / 4096) (-52) := by
  have bits := toNat_unitBits word
  have bound := word.toNat_lt
  obtain ⟨positive, unpacked⟩ := unpack_of_exponent
    (b := ((0x3ff0000000000000 : UInt64) ||| (word >>> 12)).toBitVec) (k := 1023)
    (by rw [UInt64.toNat_toBitVec]; omega) (by rw [UInt64.toNat_toBitVec]; omega)
    (by norm_num) (by norm_num)
  rw [← unpack_ofBits] at unpacked
  refine ⟨congrArg Float.Model.UnpackedFloat.isFinite unpacked, (congrArg valueOf unpacked).trans ?_⟩
  change scaled _ (-52) = _
  rw [UInt64.toNat_toBitVec, bits, Nat.mul_add_mod', Nat.mod_eq_of_lt (by omega)]

theorem fraction_le_one (word : UInt64) : scaled (word.toNat / 4096) (-52) ≤ 1 := by
  have unit : scaled (2 ^ 52) (-52) = 1 := by norm_num [scaled]
  have := word.toNat_lt
  rw [← unit, scaled_le_scaled]
  omega

theorem value_fraction (word : UInt64) :
    (unitOf word - 1.0).isFinite = true ∧
      value (unitOf word - 1.0) = scaled (word.toNat / 4096) (-52) := by
  have one : (1.0 : Float).isFinite = true := rfl
  obtain ⟨finite, same⟩ := value_unitOf word
  have exact : value (unitOf word) - value 1.0 = scaled (word.toNat / 4096) (-52) := by
    rw [same, value_one, scaled, scaled]
    push_cast
    ring
  obtain ⟨z, real, value_z⟩ := exists_value_eq (n := word.toNat / 4096) (e := -52)
    (by have := word.toNat_lt; omega) (by norm_num)
  rw [min_eq_left ((fraction_le_one word).trans (value_one ▸ value_le_limit 1.0))] at value_z
  obtain ⟨number, between⟩ := between_sub finite one
  rw [exact, ← value_z] at between
  have fraction : value (unitOf word - 1.0) = value z :=
    le_antisymm ((between z real).2 le_rfl) ((between z real).1 le_rfl)
  rw [fraction, value_z]
  refine ⟨isFinite_of_nonneg_of_le number ?_ one ?_, rfl⟩
  · rw [fraction, value_z]
    exact scaled_nonneg _ _
  · rw [fraction, value_z, value_one]
    exact fraction_le_one word

theorem value_stretched {width : Float} (finite : width.isFinite = true) (nonneg : 0 ≤ value width)
    (word : UInt64) :
    ((unitOf word - 1.0) * width).isFinite = true ∧ 0 ≤ value ((unitOf word - 1.0) * width) := by
  obtain ⟨fraction, same⟩ := value_fraction word
  obtain ⟨number, between⟩ := between_mul fraction finite
  rw [same] at between
  have stretched := between.nonneg (mul_nonneg (scaled_nonneg _ _) nonneg)
  have narrow : value ((unitOf word - 1.0) * width) ≤ value width :=
    (between width (isNaN_of_isFinite finite)).2
      (mul_le_of_le_one_left nonneg (fraction_le_one word))
  exact ⟨isFinite_of_nonneg_of_le number stretched finite narrow, stretched⟩

theorem value_numberOf {lo hi x : Float} {word : UInt64} (hlo : lo.isFinite = true)
    (width : (hi - lo).isFinite = true) (hhi : hi.isFinite = true) (order : value lo ≤ value hi)
    (drawn : numberOf? lo hi word = some x) :
    x.isNaN = false ∧ value lo ≤ value x ∧ value x < value hi := by
  have wide : 0 ≤ value (hi - lo) := (between_sub hhi hlo).2.nonneg (by linarith)
  obtain ⟨offset, stretched⟩ := value_stretched width wide word
  obtain ⟨number, between⟩ := between_add offset hlo
  have above := (between lo (isNaN_of_isFinite hlo)).1 (by linarith)
  unfold numberOf? at drawn
  dsimp only at drawn
  split at drawn
  next below =>
    obtain rfl := Option.some.inj drawn
    exact ⟨number, above, (lt_iff.mp below).2.2⟩
  next => cases drawn

theorem fraction_lt_eighth {word : UInt64} (low : word.toNat < 2 ^ 61) :
    scaled (word.toNat / 4096) (-52) < 1 / 8 := by
  have eighth : scaled (2 ^ 49) (-52) = 1 / 8 := by norm_num [scaled]
  rw [← eighth, scaled_lt_scaled]
  omega

theorem value_stretched_lt {lo hi : Float} {word : UInt64} (hlo : lo.isFinite = true)
    (width : (hi - lo).isFinite = true) (hhi : hi.isFinite = true) (order : value lo < value hi)
    (low : word.toNat < 2 ^ 61) :
    value ((unitOf word - 1.0) * (hi - lo)) < (value hi - value lo) / 2 := by
  obtain ⟨fraction, same⟩ := value_fraction word
  have nonneg : 0 ≤ value (unitOf word - 1.0) := same ▸ scaled_nonneg _ _
  have eighth : value (unitOf word - 1.0) < 1 / 8 := same ▸ fraction_lt_eighth low
  have positive : 0 < value hi - value lo := sub_pos.mpr order
  have wide : value (hi - lo) ≤ 2 * (value hi - value lo) :=
    (closest_sub hhi hlo).2.le_double positive.le
  have wide_nonneg : 0 ≤ value (hi - lo) := (between_sub hhi hlo).2.nonneg positive.le
  -- Neither the width nor its fraction is rounded to more than the double, so an eighth is less than a half.
  calc value ((unitOf word - 1.0) * (hi - lo))
      ≤ 2 * (value (unitOf word - 1.0) * value (hi - lo)) :=
        (closest_mul fraction width).2.le_double (mul_nonneg nonneg wide_nonneg)
    _ ≤ 2 * (value (unitOf word - 1.0) * (2 * (value hi - value lo))) := by gcongr
    _ = 4 * (value (unitOf word - 1.0) * (value hi - value lo)) := by ring
    _ < 4 * (1 / 8 * (value hi - value lo)) := by gcongr
    _ = (value hi - value lo) / 2 := by ring

theorem exists_numberOf {lo hi : Float} {word : UInt64} (hlo : lo.isFinite = true)
    (width : (hi - lo).isFinite = true) (hhi : hi.isFinite = true) (order : value lo < value hi)
    (low : word.toNat < 2 ^ 61) : ∃ x, numberOf? lo hi word = some x := by
  have wide_nonneg : 0 ≤ value (hi - lo) := (between_sub hhi hlo).2.nonneg (by linarith)
  obtain ⟨offset, offset_nonneg⟩ := value_stretched width wide_nonneg word
  have short := value_stretched_lt hlo width hhi order low
  obtain ⟨number, closest⟩ := closest_add offset hlo
  -- Rounding adds no more than the offset once again, and twice the offset is below the width.
  have below : value ((unitOf word - 1.0) * (hi - lo) + lo) < value hi := by
    have near := closest lo (isNaN_of_isFinite hlo)
    rw [add_sub_cancel_right, abs_of_nonneg offset_nonneg] at near
    linarith [(abs_le.mp near).1]
  unfold numberOf?
  dsimp only
  rw [if_pos (lt_iff.mpr ⟨number, isNaN_of_isFinite hhi, below⟩)]
  exact ⟨_, rfl⟩

variable {σ : Type} [WordStream σ] {α : Type}

theorem firstAccepted_of {P : α → Prop} {accept : UInt64 → Option α} {fallback : α}
    (h : P fallback) (accepted : ∀ word a, accept word = some a → P a) (n : Nat) (s : σ) :
    P (firstAccepted accept fallback n s).1 := by
  induction n generalizing s with
  | zero => exact h
  | succ n ih =>
      unfold firstAccepted
      dsimp only
      split
      next a same => exact accepted _ a same
      next => exact ih _

end Random

namespace Span

structure Holds (s : Span) (x : Float) : Prop where
  finite : x.isFinite = true
  min : Binary64.value s.min ≤ Binary64.value x
  max : Binary64.value x ≤ Binary64.value s.max

variable {σ : Type} [WordStream σ]

theorem Drawable.value_le {s : Span} (h : s.Drawable) : Binary64.value s.min ≤ Binary64.value s.max := by
  by_contra reversed
  exact h.order (lt_iff.mpr
    ⟨isNaN_of_isFinite h.max, isNaN_of_isFinite h.min, not_le.mp reversed⟩)

theorem holds_sample {s : Span} (h : s.Drawable) (g : σ) : s.Holds (s.sample g).1 := by
  have order := h.value_le
  have lowest : s.Holds s.min := ⟨h.min, le_rfl, order⟩
  unfold sample
  split
  next =>
    refine Random.firstAccepted_of lowest (fun word x drawn => ?_) _ g
    obtain ⟨number, above, below⟩ := Random.value_numberOf h.min h.width h.max order drawn
    exact ⟨isFinite_of_between number h.min h.max above below.le, above, below.le⟩
  next => exact lowest

end Span
end AnimatedCanvas
