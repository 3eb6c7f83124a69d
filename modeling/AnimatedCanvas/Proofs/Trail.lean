import AnimatedCanvas.Trail

namespace AnimatedCanvas.Trail

variable {t : Trail} {pushed : List Point}

theorem evict_eq_drop (cap : Nat) (points : List Point) :
    evict cap points = points.drop (points.length - cap) := by
  induction points with
  | nil => exact List.drop_nil.symm
  | cons oldest later ih =>
      unfold evict
      split
      next more =>
        rw [ih, List.length_cons, Nat.succ_sub (Nat.le_of_lt_succ more), List.drop_succ_cons]
      next fits => rw [Nat.sub_eq_zero_of_le (Nat.not_lt.mp fits), List.drop_zero]

@[simp] theorem cap_push (t : Trail) (p : Point) : (t.push p).cap = t.cap := by
  unfold push
  split <;> rfl

theorem points_push (bounded : t.length ≤ t.cap) (p : Point) :
    (t.push p).points = evict t.cap (t.points ++ [p]) := by
  unfold push
  split
  next noRoom =>
    -- A trail that takes no points has none to keep.
    have held : t.points = [] := List.length_eq_zero_iff.mp (Nat.le_zero.mp (noRoom ▸ bounded))
    rw [evict_eq_drop, held, noRoom]
    rfl
  next room => rfl

theorem length_push (bounded : t.length ≤ t.cap) (p : Point) :
    (t.push p).length = min t.cap (t.length + 1) := by
  rw [length, points_push bounded, evict_eq_drop, List.length_drop, List.length_append,
    List.length_singleton]
  change t.length + 1 - (t.length + 1 - t.cap) = _
  omega

theorem exists_forgotten (bounded : t.length ≤ t.cap) (p : Point) :
    ∃ forgotten : List Point, forgotten.length ≤ 1 ∧
      t.points ++ [p] = forgotten ++ (t.push p).points := by
  refine ⟨(t.points ++ [p]).take ((t.points ++ [p]).length - t.cap), ?_, ?_⟩
  · have : t.points.length ≤ t.cap := bounded
    rw [List.length_take, List.length_append, List.length_singleton]
    omega
  · rw [points_push bounded, evict_eq_drop, List.take_append_drop]

def Recalls (t : Trail) (pushed : List Point) : Prop :=
  t.points = pushed.drop (pushed.length - t.cap)

theorem recalls_empty (cap : Nat) : (empty cap).Recalls [] := List.drop_nil.symm

theorem Recalls.length (h : t.Recalls pushed) : t.length = min t.cap pushed.length := by
  rw [Trail.length, h, List.length_drop]
  omega

theorem Recalls.bounded (h : t.Recalls pushed) : t.length ≤ t.cap :=
  Nat.le_trans (Nat.le_of_eq h.length) (Nat.min_le_left _ _)

theorem Recalls.push (h : t.Recalls pushed) (p : Point) : (t.push p).Recalls (pushed ++ [p]) := by
  -- What is kept of the longer history is what is kept of the part that was held.
  have held : t.points ++ [p] = (pushed ++ [p]).drop (pushed.length - t.cap) := by
    rw [h, List.drop_append_of_le_length (Nat.sub_le _ _)]
  unfold Recalls
  rw [points_push h.bounded, evict_eq_drop, held, List.drop_drop, List.length_drop,
    List.length_append, List.length_singleton, cap_push]
  congr 1
  omega

theorem Recalls.pushAll (h : t.Recalls pushed) (later : List Point) :
    (later.foldl Trail.push t).Recalls (pushed ++ later) := by
  induction later generalizing t pushed with
  | nil => rwa [List.append_nil]
  | cons p later ih =>
      rw [List.append_cons]
      exact ih (h.push p)

theorem cap_pushAll (t : Trail) (pushed : List Point) : (pushed.foldl push t).cap = t.cap := by
  induction pushed generalizing t with
  | nil => rfl
  | cons p later ih => exact (ih (t.push p)).trans (cap_push t p)

/-- A new trail is a queue of bounded length: it holds the latest points, and what leaves it to make
room for a further point is at most one of them. -/
theorem pushed_points (cap : Nat) (pushed : List Point) :
    let t := pushed.foldl push (empty cap)
    let held := min cap pushed.length
    t.points = pushed.drop (pushed.length - held) ∧
    t.length = held ∧
    (t.isEmpty = true ↔ cap = 0 ∨ pushed = []) ∧
    ∀ p, (t.push p).points = evict cap (t.points ++ [p]) ∧
      ∃ forgotten : List Point, forgotten.length ≤ 1 ∧
        t.points ++ [p] = forgotten ++ (t.push p).points := by
  intro t held
  have recalls : t.Recalls pushed := (recalls_empty cap).pushAll pushed
  have same : t.cap = cap := cap_pushAll (empty cap) pushed
  have length : t.length = held := by rw [recalls.length, same]
  refine ⟨?_, length, ?_, fun p => ⟨same ▸ points_push recalls.bounded p,
    exists_forgotten recalls.bounded p⟩⟩
  · rw [recalls, same]
    congr 1
    omega
  · rw [isEmpty, List.isEmpty_iff_length_eq_zero]
    change t.length = 0 ↔ _
    rw [length, ← List.length_eq_zero_iff]
    omega

end AnimatedCanvas.Trail
