import AnimatedCanvas.Proofs.Binary64.Distance

namespace AnimatedCanvas.Binary64

open Float.Model (UnpackedFloat Format)
open Float.Model.UnpackedFloat

variable {x y : Float}

theorem unpack_of_isNaN (h : x.isNaN = true) : x.toModel.unpack = .notANumber := by
  have poisoned : x.toModel.unpack.isNaN = true := h
  cases unpacked : x.toModel.unpack with
  | notANumber => rfl
  | infinity s => simp [unpacked, UnpackedFloat.isNaN] at poisoned
  | zero s => simp [unpacked, UnpackedFloat.isNaN] at poisoned
  | finite s m e positive => simp [unpacked, UnpackedFloat.isNaN] at poisoned

theorem isNaN_of_unpack
    (h : x.toModel.unpack = unpack Format.binary64 (pack Format.binary64 .notANumber)) :
    x.isNaN = true := by
  change x.toModel.unpack.isNaN = true
  rw [h, unpack_pack_notANumber]
  rfl

theorem poisoned_add_left (h : x.isNaN = true) (y : Float) : (x + y).isNaN = true := by
  apply isNaN_of_unpack
  rw [unpack_add, unpack_of_isNaN h]
  rfl

theorem poisoned_add_right (x : Float) (h : y.isNaN = true) : (x + y).isNaN = true := by
  apply isNaN_of_unpack
  rw [unpack_add, unpack_of_isNaN h]
  cases x.toModel.unpack <;> rfl

theorem poisoned_sub_right (x : Float) (h : y.isNaN = true) : (x - y).isNaN = true := by
  rw [sub_eq_add]
  exact poisoned_add_right x ((isNaN_neg y).trans h)

theorem poisoned_mul_left (h : x.isNaN = true) (y : Float) : (x * y).isNaN = true := by
  apply isNaN_of_unpack
  rw [unpack_mul, unpack_of_isNaN h]
  rfl

theorem poisoned_div_left (h : x.isNaN = true) (y : Float) : (x / y).isNaN = true := by
  apply isNaN_of_unpack
  rw [unpack_div, unpack_of_isNaN h]
  rfl

theorem poisoned_div_right (x : Float) (h : y.isNaN = true) : (x / y).isNaN = true := by
  apply isNaN_of_unpack
  rw [unpack_div, unpack_of_isNaN h]
  cases x.toModel.unpack <;> rfl

theorem poisoned_sqrt (h : x.isNaN = true) : x.sqrt.isNaN = true := by
  apply isNaN_of_unpack
  rw [unpack_sqrt, unpack_of_isNaN h]
  rfl

theorem poisoned_distance {dx dy : Float} (h : dx.isNaN = true ∨ dy.isNaN = true) :
    (dx * dx + dy * dy).sqrt.isNaN = true := by
  apply poisoned_sqrt
  rcases h with left | right
  · exact poisoned_add_left (poisoned_mul_left left dx) _
  · exact poisoned_add_right _ (poisoned_mul_left right dy)

theorem isNaN_div (hx : x.isNaN = false) (hy : y.isFinite = true) (nonzero : value y ≠ 0) :
    (x / y).isNaN = false := by
  rcases isFinite_or_isInfinite hx with finite | ⟨s, infinite⟩
  · exact (between_div finite hy nonzero).1
  · change (x / y).toModel.unpack.isNaN = false
    rw [unpack_div, infinite]
    rw [value] at nonzero
    obtain ⟨t, same⟩ | ⟨t, m, e, positive, same⟩ := zero_or_finite hy
    · rw [same] at nonzero
      exact absurd rfl nonzero
    · rw [same]
      change (unpack _ (pack _ (.infinity (s / t)))).isNaN = false
      rw [unpack_pack_infinity]
      rfl

end AnimatedCanvas.Binary64
