import AnimatedCanvas.Proofs.Decimal.Interval

namespace AnimatedCanvas.Decimal.RoundingInterval

open Binary64 (scaled scaled_pos two_zpow_pos)

variable {r : RoundingInterval} {tie : Tie} {e : Int} {c n : Nat}

theorem nearer_eq (tie : Tie) (value step c : Nat) :
    nearer tie value step c = c ∨ nearer tie value step c = c + 1 := by
  unfold nearer
  dsimp only
  split
  · exact .inl rfl
  split
  · exact .inr rfl
  split
  · exact .inl rfl
  · exact .inr rfl

theorem holds_of_nearest? (h : r.nearest? tie e = some c) : r.holds e c = true := by
  unfold nearest? at h
  dsimp only at h
  split at h
  next below above =>
    cases h
    obtain same | same := nearer_eq tie (r.mid * r.gridUnit e) (r.gridStep e)
      (r.mid * r.gridUnit e / r.gridStep e)
    · rwa [same]
    · rwa [same]
  next below _ =>
    cases h
    exact below
  next _ above =>
    cases h
    exact above
  · cases h

theorem holds_of_inside (first : r.low * r.gridUnit e < c * r.gridStep e)
    (last : c * r.gridStep e < r.high * r.gridUnit e) : r.holds e c = true := by
  unfold holds
  dsimp only
  split
  · simp only [first.le, last.le, decide_true, Bool.and_self]
  · simp only [first, last, decide_true, Bool.and_self]

theorem gridStep_pos (r : RoundingInterval) (e : Int) : 0 < r.gridStep e := by
  simp only [gridStep, Nat.pow_eq]
  positivity

theorem gridUnit_pos (r : RoundingInterval) (e : Int) : 0 < r.gridUnit e := by
  simp only [gridUnit, Nat.pow_eq]
  positivity

theorem exists_nearest? (low : r.low ≤ r.mid) (high : r.mid < r.high)
    (fine : r.low * r.gridUnit e + r.gridStep e < r.high * r.gridUnit e) :
    ∃ c, r.nearest? tie e = some c := by
  have below : r.mid * r.gridUnit e / r.gridStep e * r.gridStep e ≤ r.mid * r.gridUnit e :=
    Nat.div_mul_le_self _ _
  have above : r.mid * r.gridUnit e <
      (r.mid * r.gridUnit e / r.gridStep e + 1) * r.gridStep e := by
    rw [Nat.add_one_mul]
    exact Nat.lt_div_mul_add (r.gridStep_pos e)
  have up : r.mid * r.gridUnit e < r.high * r.gridUnit e :=
    Nat.mul_lt_mul_of_pos_right high (r.gridUnit_pos e)
  have down : r.low * r.gridUnit e ≤ r.mid * r.gridUnit e := Nat.mul_le_mul_right _ low
  unfold nearest?
  dsimp only
  -- If the lower neighbour is outside, then the upper one is a step above it, and still inside.
  by_cases first : r.low * r.gridUnit e <
      r.mid * r.gridUnit e / r.gridStep e * r.gridStep e
  · rw [holds_of_inside first (below.trans_lt up)]
    cases r.holds e (r.mid * r.gridUnit e / r.gridStep e + 1) with
    | true => exact ⟨_, rfl⟩
    | false => exact ⟨_, rfl⟩
  · have second : (r.mid * r.gridUnit e / r.gridStep e + 1) * r.gridStep e <
        r.high * r.gridUnit e := by
      rw [Nat.add_one_mul]
      omega
    rw [holds_of_inside (down.trans_lt above) second]
    cases r.holds e (r.mid * r.gridUnit e / r.gridStep e) with
    | true => exact ⟨_, rfl⟩
    | false => exact ⟨_, rfl⟩

theorem ten_pow_le_two_pow : ∀ n < 1100,
    10 ^ (n * 30103 / 100000) ≤ 2 ^ n ∧ 2 ^ n ≤ 10 ^ ((n * 30103 + 99999) / 100000) := by
  decide +kernel

theorem ten_zpow_le_two_zpow {l : Int} (least : -1100 < l) (greatest : l < 1100) :
    (10 : ℚ) ^ (l * 30103 / 100000) ≤ 2 ^ l := by
  obtain ⟨n, rfl | rfl⟩ := l.eq_nat_or_neg
  · have exponent : (n : Int) * 30103 / 100000 = (n * 30103 / 100000 : Nat) := by omega
    rw [exponent, zpow_natCast, zpow_natCast]
    exact_mod_cast (ten_pow_le_two_pow n (by omega)).1
  · have exponent : -(n : Int) * 30103 / 100000 = -((n * 30103 + 99999) / 100000 : Nat) := by omega
    rw [exponent, zpow_neg, zpow_neg, zpow_natCast, zpow_natCast]
    refine inv_anti₀ (by positivity) ?_
    exact_mod_cast (ten_pow_le_two_pow n (by omega)).2

theorem two_zpow_log2_le (h : 0 < r.mid) : (2 : ℚ) ^ (r.mid.log2 + r.power) ≤ scaled r.mid r.power := by
  rw [scaled, zpow_add₀ (by norm_num), zpow_natCast]
  refine mul_le_mul_of_nonneg_right ?_ (two_zpow_pos _).le
  exact_mod_cast Nat.log2_self_le h.ne'

theorem gridStep_le_iff {k : Int} :
    r.gridStep k ≤ r.mid * r.gridUnit k ↔ (10 : ℚ) ^ k ≤ scaled r.mid r.power := by
  rw [← Nat.cast_le (α := ℚ), mul_gridUnit, gridStep_eq, mul_le_mul_iff_left₀ (r.scale_pos k)]

theorem ten_zpow_magnitude_le (positive : 0 < r.mid) (least : -1100 < r.mid.log2 + r.power)
    (greatest : r.mid.log2 + r.power < 1100) :
    (10 : ℚ) ^ (r.magnitude - 1) ≤ scaled r.mid r.power := by
  unfold magnitude
  dsimp only
  split
  next enough =>
    rw [add_sub_cancel_right]
    exact gridStep_le_iff.1 enough
  next =>
    rw [add_sub_cancel_right]
    exact (ten_zpow_le_two_zpow least greatest).trans (two_zpow_log2_le positive)

theorem log2_nth (positive : 0 < n) (finite : n < 2047 * 2 ^ 52) :
    -1100 < (nth n).mid.log2 + (nth n).power ∧ (nth n).mid.log2 + (nth n).power < 1100 := by
  have long : (nth n).mid.log2 < 55 := by
    rw [Nat.log2_lt (mid_nth_pos positive).ne']
    simp only [nth]
    split <;> omega
  have power : (nth n).power = (max (n / 2 ^ 52) 1 : Nat) - 1077 := rfl
  omega

theorem fine_nth (positive : 0 < n) (finite : n < 2047 * 2 ^ 52) :
    (nth n).low * (nth n).gridUnit ((nth n).magnitude - 17) +
        (nth n).gridStep ((nth n).magnitude - 17) <
      (nth n).high * (nth n).gridUnit ((nth n).magnitude - 17) := by
  obtain ⟨least, greatest⟩ := log2_nth positive finite
  have estimate := ten_zpow_magnitude_le (mid_nth_pos positive) least greatest
  -- A unit of the seventeenth digit is at most `10 ^ -16` of the number.
  have long : (nth n).low * 10 ^ 16 + (nth n).mid < (nth n).high * 10 ^ 16 := by
    simp only [nth]
    split <;> split <;> omega
  generalize nth n = r at estimate long ⊢
  have unit := two_zpow_pos r.power
  have digits : (10 : ℚ) ^ (r.magnitude - 1) = 10 ^ (r.magnitude - 17) * 10 ^ 16 := by
    rw [← zpow_natCast, ← zpow_add₀ (by norm_num)]
    congr 1
    omega
  have long : (r.low * 10 ^ 16 + r.mid : ℚ) < r.high * 10 ^ 16 := by exact_mod_cast long
  have shorter : scaled r.low r.power + 10 ^ (r.magnitude - 17) < scaled r.high r.power := by
    rw [digits] at estimate
    have longer := mul_lt_mul_of_pos_right long unit
    simp only [scaled] at estimate ⊢
    linarith
  rw [← Nat.cast_lt (α := ℚ), Nat.cast_add, mul_gridUnit, mul_gridUnit, gridStep_eq, ← add_mul]
  exact mul_lt_mul_of_pos_right shorter (r.scale_pos _)

theorem exists_shortest (positive : 0 < n) (finite : n < 2047 * 2 ^ 52) (tie : Tie) :
    ∃ c e, (nth n).shortest tie = ofScaled c e ∧ (nth n).Contains (c * 10 ^ e) := by
  have high : (nth n).mid < (nth n).high := Nat.lt_add_of_pos_right two_pos
  obtain ⟨last, found⟩ : ∃ c, (nth n).nearest? tie ((nth n).magnitude - 17) = some c :=
    exists_nearest? (low_lt_mid positive).le high (fine_nth positive finite)
  unfold shortest
  dsimp only
  cases search : (List.range 17).findSome? fun (i : Nat) =>
      ((nth n).nearest? tie ((nth n).magnitude - (i + 1))).map
        (ofScaled · ((nth n).magnitude - (i + 1))) with
  | none =>
      have none := List.findSome?_eq_none_iff.1 search 16 (by simp)
      rw [show ((16 : Nat) : Int) + 1 = 17 from rfl, found] at none
      cases none
  | some d =>
      obtain ⟨i, -, point⟩ := List.exists_of_findSome?_eq_some search
      obtain ⟨c, nearest, rfl⟩ := Option.map_eq_some_iff.1 point
      exact ⟨c, _, rfl, (holds_iff _ _ c).1 (holds_of_nearest? nearest)⟩

end AnimatedCanvas.Decimal.RoundingInterval
