import AnimatedCanvas.Proofs.Binary64.Packing

namespace AnimatedCanvas.Binary64

open Float.Model (UnpackedFloat Format)
open Float.Model.UnpackedFloat

def signed : Sign → ℚ → ℚ
  | .negative, v => -v
  | .positive, v => v

def valueOf : UnpackedFloat → ℚ
  | .infinity s => signed s limit
  | .notANumber => 0
  | .zero _ => 0
  | .finite s m e _ => signed s (scaled m e)

theorem zero_or_finite {x : UnpackedFloat} (h : x.isFinite = true) :
    (∃ s, x = .zero s) ∨ ∃ s m e, ∃ hm : 0 < m, x = .finite s m e hm := by
  cases x with
  | infinity s => simp [UnpackedFloat.isFinite] at h
  | notANumber => simp [UnpackedFloat.isFinite] at h
  | zero s => exact .inl ⟨s, rfl⟩
  | finite s m e hm => exact .inr ⟨s, m, e, hm, rfl⟩

theorem valueOf_finite_bounds {m : Nat} {e : Int} (h : 0 < m) (fits : Canonical m e ∧ e ≤ 971)
    (s : Sign) : -limit < valueOf (.finite s m e h) ∧ valueOf (.finite s m e h) < limit := by
  have positive := scaled_pos h e
  have below := fits.1.scaled_lt_limit fits.2
  cases s <;> constructor <;> simp only [valueOf, signed] <;> linarith

theorem compares_neg {v w : ℚ} {o : Ordering} (h : o.Compares v w) : o.swap.Compares (-v) (-w) := by
  cases o with
  | lt => exact neg_lt_neg h
  | eq => exact congrArg Neg.neg h
  | gt => exact neg_lt_neg h

theorem exists_compare_finite {m n : Nat} {e d : Int} (hm : 0 < m) (hn : 0 < n)
    (canonical : Canonical m e) (canonical' : Canonical n d) (s t : Sign) :
    ∃ o, (UnpackedFloat.finite s m e hm).compare (.finite t n d hn) = some o ∧
      o.Compares (signed s (scaled m e)) (signed t (scaled n d)) := by
  have positive := scaled_pos hm e
  have positive' := scaled_pos hn d
  have order := canonical.compares canonical'
  cases s <;> cases t
  · exact ⟨_, rfl, compares_neg order⟩
  · refine ⟨.lt, rfl, ?_⟩
    change -scaled m e < scaled n d
    linarith
  · refine ⟨.gt, rfl, ?_⟩
    change -scaled n d < scaled m e
    linarith
  · exact ⟨_, rfl, order⟩

theorem exists_compare {x y : UnpackedFloat} (hx : Fits x) (hy : Fits y)
    (nx : x.isNaN = false) (ny : y.isNaN = false) :
    ∃ o, x.compare y = some o ∧ o.Compares (valueOf x) (valueOf y) := by
  have infinite := limit_pos
  cases x with
  | notANumber => simp [UnpackedFloat.isNaN] at nx
  | infinity s =>
      cases y with
      | notANumber => simp [UnpackedFloat.isNaN] at ny
      | infinity t =>
          cases s <;> cases t
          · exact ⟨.eq, rfl, rfl⟩
          · exact ⟨.lt, rfl, neg_lt_self infinite⟩
          · exact ⟨.gt, rfl, neg_lt_self infinite⟩
          · exact ⟨.eq, rfl, rfl⟩
      | zero t =>
          cases s
          · exact ⟨.lt, rfl, neg_lt_zero.mpr infinite⟩
          · exact ⟨.gt, rfl, infinite⟩
      | finite t n d hn =>
          have bounds := valueOf_finite_bounds hn hy t
          cases s
          · exact ⟨.lt, rfl, bounds.1⟩
          · exact ⟨.gt, rfl, bounds.2⟩
  | zero s =>
      cases y with
      | notANumber => simp [UnpackedFloat.isNaN] at ny
      | infinity t =>
          cases t
          · exact ⟨.gt, rfl, neg_lt_zero.mpr infinite⟩
          · exact ⟨.lt, rfl, infinite⟩
      | zero t => exact ⟨.eq, rfl, rfl⟩
      | finite t n d hn =>
          have positive := scaled_pos hn d
          cases t
          · exact ⟨.gt, rfl, neg_lt_zero.mpr positive⟩
          · exact ⟨.lt, rfl, positive⟩
  | finite s m e hm =>
      cases y with
      | notANumber => simp [UnpackedFloat.isNaN] at ny
      | infinity t =>
          have bounds := valueOf_finite_bounds hm hx s
          cases t
          · exact ⟨.gt, by cases s <;> rfl, bounds.1⟩
          · exact ⟨.lt, by cases s <;> rfl, bounds.2⟩
      | zero t =>
          have positive := scaled_pos hm e
          cases s
          · exact ⟨.lt, rfl, neg_lt_zero.mpr positive⟩
          · exact ⟨.gt, rfl, positive⟩
      | finite t n d hn => exact exists_compare_finite hm hn hx.1 hy.1 s t

/-- The value of a float; zero if it is not a number. -/
def value (x : Float) : ℚ := valueOf x.toModel.unpack

variable {x y : Float}

theorem fits (x : Float) : Fits x.toModel.unpack := fits_unpack _

theorem compare_of_isNaN {x y : UnpackedFloat} (h : x.isNaN = true ∨ y.isNaN = true) :
    x.compare y = none := by
  cases x <;> cases y <;> simp_all [UnpackedFloat.isNaN, UnpackedFloat.compare]

theorem compare_cases (x y : Float) :
    x.toModel.unpack.compare y.toModel.unpack = none ∧ ¬ (x.isNaN = false ∧ y.isNaN = false) ∨
    ∃ o, x.toModel.unpack.compare y.toModel.unpack = some o ∧
      (x.isNaN = false ∧ y.isNaN = false) ∧ o.Compares (value x) (value y) := by
  by_cases numbers : x.isNaN = false ∧ y.isNaN = false
  · obtain ⟨o, compared, order⟩ := exists_compare (fits x) (fits y) numbers.1 numbers.2
    exact .inr ⟨o, compared, numbers, order⟩
  · refine .inl ⟨compare_of_isNaN ?_, numbers⟩
    rcases not_and_or.mp numbers with left | right
    · exact .inl (Bool.eq_true_of_not_eq_false left)
    · exact .inr (Bool.eq_true_of_not_eq_false right)

theorem lt_iff : x < y ↔ x.isNaN = false ∧ y.isNaN = false ∧ value x < value y := by
  have unfolded : x < y ↔ (x.toModel.unpack.compare y.toModel.unpack == some .lt) = true := by
    change decide (x.toModel < y.toModel) = true ↔ _
    rw [decide_eq_true_iff]
    rfl
  rw [unfolded, ← and_assoc]
  obtain ⟨compared, other⟩ | ⟨o, compared, numbers, order⟩ := compare_cases x y
  · rw [compared]
    exact iff_of_false Bool.false_ne_true fun both => other both.1
  · rw [compared, Option.some_beq_some, beq_iff_eq, order.eq_lt, and_iff_right numbers]

theorem le_iff : x ≤ y ↔ x.isNaN = false ∧ y.isNaN = false ∧ value x ≤ value y := by
  have unfolded : x ≤ y ↔ (x.toModel.unpack.compare y.toModel.unpack).any (·.isLE) = true := by
    change decide (x.toModel ≤ y.toModel) = true ↔ _
    rw [decide_eq_true_iff]
    rfl
  rw [unfolded, ← and_assoc]
  obtain ⟨compared, other⟩ | ⟨o, compared, numbers, order⟩ := compare_cases x y
  · rw [compared]
    exact iff_of_false Bool.false_ne_true fun both => other both.1
  · rw [compared, Option.any_some, Ordering.isLE_iff_ne_gt, ← ne_eq, order.ne_gt,
      and_iff_right numbers]

theorem le_chain {z : Float} (h : x ≤ y) (h' : y ≤ z) : x ≤ z := by
  obtain ⟨number, -, le⟩ := le_iff.mp h
  obtain ⟨-, number', le'⟩ := le_iff.mp h'
  exact le_iff.mpr ⟨number, number', le.trans le'⟩

theorem lt_chain {z : Float} (h : x < y) (h' : y < z) : x < z := by
  obtain ⟨number, -, less⟩ := lt_iff.mp h
  obtain ⟨-, number', less'⟩ := lt_iff.mp h'
  exact lt_iff.mpr ⟨number, number', less.trans less'⟩

theorem beq_iff : (x == y) = true ↔ x.isNaN = false ∧ y.isNaN = false ∧ value x = value y := by
  change (x.toModel.unpack.compare y.toModel.unpack == some .eq) = true ↔ _
  rw [← and_assoc]
  obtain ⟨compared, other⟩ | ⟨o, compared, numbers, order⟩ := compare_cases x y
  · rw [compared]
    exact iff_of_false Bool.false_ne_true fun both => other both.1
  · rw [compared, Option.some_beq_some, beq_iff_eq, order.eq_eq, and_iff_right numbers]

@[simp] theorem value_zero : value 0.0 = 0 := rfl

@[simp] theorem value_one : value 1.0 = 1 := by
  change scaled (2 ^ 52) (-52) = 1
  norm_num [scaled]

@[simp] theorem value_two : value 2.0 = 2 := by
  change scaled (2 ^ 52) (-51) = 2
  norm_num [scaled]

@[simp] theorem isNaN_zero : (0.0 : Float).isNaN = false := rfl

theorem isNaN_of_isFinite (h : x.isFinite = true) : x.isNaN = false := by
  have finite : x.toModel.unpack.isFinite = true := h
  change x.toModel.unpack.isNaN = false
  cases unpacked : x.toModel.unpack <;> simp_all [UnpackedFloat.isFinite, UnpackedFloat.isNaN]

theorem Fits.neg {x : UnpackedFloat} (h : Fits x) : Fits x.neg := by
  cases x <;> exact h

theorem signed_neg (s : Sign) (v : ℚ) : signed (-s) v = -signed s v := by
  cases s
  · exact (neg_neg v).symm
  · rfl

theorem valueOf_neg (x : UnpackedFloat) : valueOf x.neg = -valueOf x := by
  cases x with
  | infinity s => exact signed_neg s limit
  | notANumber => exact neg_zero.symm
  | zero s => exact neg_zero.symm
  | finite s m e h => exact signed_neg s (scaled m e)

theorem unpack_neg (x : Float) : (-x).toModel.unpack = x.toModel.unpack.neg :=
  unpack_pack (fits x).neg

theorem value_neg (x : Float) : value (-x) = -value x := by
  rw [value, unpack_neg, valueOf_neg, ← value]

theorem isNaN_neg (x : Float) : (-x).isNaN = x.isNaN := by
  change (-x).toModel.unpack.isNaN = x.toModel.unpack.isNaN
  rw [unpack_neg]
  cases x.toModel.unpack <;> rfl

end AnimatedCanvas.Binary64
