import AnimatedCanvas.Proofs.Binary64.NotANumber
import AnimatedCanvas.Proofs.Field.Quiescence
import AnimatedCanvas.Proofs.Wave

namespace AnimatedCanvas

open Binary64 Check

theorem Check.InUnit.lose {x d : Float} (h : InUnit x) (nonneg : 0.0 ≤ d) :
    InUnit (nonnegative (x - d)) ∧ nonnegative (x - d) ≤ x := by
  obtain ⟨finite, nonneg', le_one⟩ := h.value
  obtain ⟨number, falls⟩ := value_sub_le finite nonneg
  obtain ⟨number, same⟩ := value_nonnegative number
  have le : Binary64.value (nonnegative (x - d)) ≤ Binary64.value x :=
    same.trans_le (max_le nonneg' falls)
  exact ⟨inUnit_of_value number (same ▸ le_max_left 0 _) (le.trans le_one),
    le_iff.mpr ⟨number, isNaN_of_isFinite finite, le⟩⟩

theorem clampTo_unit_not_gt (x : Float) : ¬ clampTo 0.0 1.0 x > 1.0 := by
  unfold clampTo
  split
  next => exact fun above => absurd (lt_iff.mp above).2.2 (by simp)
  next =>
    split
    next => exact fun above => lt_irrefl _ (lt_iff.mp above).2.2
    next inside => exact inside

namespace Wave

def IsNew (w : Wave) : Prop :=
  ∃ center maxRadius speed opacity fade color,
    w = start center maxRadius speed opacity fade color

structure Moderate (w : Wave) : Prop extends w.Moving where
  faint : ¬ w.opacity > 1.0

theorem IsNew.moderate {w : Wave} (h : w.IsNew) : w.Moderate := by
  obtain ⟨center, maxRadius, speed, opacity, fade, color, rfl⟩ := h
  exact ⟨moving_start center maxRadius speed opacity fade color, clampTo_unit_not_gt opacity⟩

variable {w : Wave}

theorem Moving.isNaN_radius (h : w.Moving) : w.radius.isNaN = false := (le_iff.mp h.radius).2.1

theorem Moderate.inUnit_opacity (h : w.Moderate) (number : w.opacity.isNaN = false) :
    InUnit w.opacity := by
  have nonneg : value 0.0 ≤ value w.opacity := by
    by_contra less
    exact h.opacity (lt_iff.mpr ⟨number, rfl, not_le.mp less⟩)
  have le_one : value w.opacity ≤ value 1.0 := by
    by_contra more
    exact h.faint (lt_iff.mpr ⟨rfl, number, not_le.mp more⟩)
  exact ⟨le_iff.mpr ⟨rfl, number, nonneg⟩, le_iff.mpr ⟨number, rfl, le_one⟩⟩

theorem opacity_advance_of_isNaN (poisoned : w.opacity.isNaN = true) : w.advance.opacity = 0.0 := by
  refine nonnegative_of_not_pos fun positive => ?_
  have number := (lt_iff.mp positive).2.1
  rw [sub_eq_add, poisoned_add_left poisoned] at number
  cases number

theorem Moderate.inUnit_opacity_advance (h : w.Moderate) : InUnit w.advance.opacity := by
  cases number : w.opacity.isNaN with
  | true =>
      rw [opacity_advance_of_isNaN number]
      exact inUnit_zero
  | false => exact ((h.inUnit_opacity number).lose (zero_le_nonnegative w.fade)).1

theorem Moderate.opacity_advance_not_gt (h : w.Moderate) : ¬ w.advance.opacity > w.opacity := by
  intro rises
  have number := (lt_iff.mp rises).1
  have falls := ((h.inUnit_opacity number).lose (zero_le_nonnegative w.fade)).2
  exact (lt_iff.mp rises).2.2.not_ge (le_iff.mp falls).2.2

theorem Moderate.advance (h : w.Moderate) : w.advance.Moderate where
  toMoving := h.toMoving.advance
  faint := fun above => (lt_iff.mp above).2.2.not_ge (le_iff.mp h.inUnit_opacity_advance.2).2.2

theorem Moderate.iterate (h : w.Moderate) (n : Nat) : (Wave.advance^[n] w).Moderate := by
  induction n generalizing w with
  | zero => exact h
  | succ n ih => exact ih h.advance

theorem Moderate.expired_of_le (h : w.Moderate) {n m : Nat} (le : n ≤ m)
    (expired : (Wave.advance^[n] w).state = .expired) :
    (Wave.advance^[m] w).state = .expired := by
  obtain ⟨k, rfl⟩ := Nat.exists_eq_add_of_le' le
  rw [Function.iterate_add_apply]
  exact (h.iterate n).expired_iterate expired k

theorem advanceAll_iterate {ws : List Wave} (moving : ∀ w ∈ ws, w.Moving) (n : Nat) :
    advanceAll^[n] ws = ws.filterMap (aged? n) := by
  induction n generalizing ws with
  | zero => simp [funext aged?_zero]
  | succ n ih =>
      have moved : ∀ w ∈ advanceAll ws, w.Moving := by
        intro w member
        obtain ⟨old, there, rfl⟩ := List.mem_map.mp (List.mem_filter.mp member).1
        exact (moving old there).advance
      rw [Function.iterate_succ_apply, ih moved, advanceAll_eq, List.filterMap_filterMap]
      exact List.filterMap_congr fun w member => ((moving w member).aged?_succ n).symm

theorem filterMap_aged?_succ (ws : List Wave) (n : Nat) :
    ws.filterMap (aged? (n + 1)) =
      (ws.map Wave.advance^[n + 1]).filter (·.state == .growing) := by
  rw [← List.filterMap_eq_filter, List.filterMap_map]
  refine List.filterMap_congr fun w _ => ?_
  cases same : (Wave.advance^[n + 1] w).state <;>
    simp only [aged?, same, Option.guard, Function.comp_apply] <;> simp

/-- Whatever numbers a wave is made of, a frame lets its radius rise and its opacity fall into `[0, 1]`,
and reports the state that it is then in; one that has expired stays expired. Frame after frame, a list of
waves is left with those that are still growing by then. -/
theorem waves_move_forward :
    (∀ w : Wave, w.IsNew → ∀ n : Nat,
      let now := Wave.advance^[n] w
      let (reported, next) := now.frame
      next = Wave.advance^[n + 1] w ∧ reported = next.state ∧
        next.radius ≥ now.radius ∧ ¬ next.opacity > now.opacity ∧
        0.0 ≤ next.opacity ∧ next.opacity ≤ 1.0 ∧
        now.radius.isNaN = false ∧ next.radius.isNaN = false ∧
        (now.state = .expired → ∀ m ≥ n, (Wave.advance^[m] w).frame.1 = .expired)) ∧
    ∀ ws : List Wave, (∀ w ∈ ws, w.IsNew) → ∀ n ≥ 1,
      advanceAll^[n] ws = (ws.map Wave.advance^[n]).filter (·.state == .growing) := by
  constructor
  · intro w new n
    have moderate := new.moderate
    have now := moderate.iterate n
    refine ⟨(Function.iterate_succ_apply' _ n w).symm, rfl, now.radius_le_advance,
      now.opacity_advance_not_gt, now.inUnit_opacity_advance.1, now.inUnit_opacity_advance.2,
      now.isNaN_radius, now.advance.isNaN_radius, fun expired m later => ?_⟩
    have next := moderate.expired_of_le (Nat.le_succ_of_le later) expired
    rwa [Function.iterate_succ_apply'] at next
  · intro ws new n positive
    obtain ⟨n, rfl⟩ := Nat.exists_eq_add_of_le' positive
    rw [advanceAll_iterate fun w member => (new w member).moderate.toMoving]
    exact filterMap_aged?_succ ws n

theorem waves_move_forward_extreme :
    let endless := start .origin (0.0 / 0.0) (1.0 / 0.0) (0.0 / 0.0) (-1.0) .indigo
    let still := start .origin (1.0 / 0.0) (-1.0 / 0.0) 7.0 (0.0 / 0.0) .indigo
    let plain := start .origin 10.0 4.0 0.5 0.1 .indigo
    let ws := [endless, still, plain]
    (∀ w ∈ ws, w.IsNew) ∧ endless.state = .growing ∧
      endless.advance.frame.1 = .expired ∧ (Wave.advance^[4] endless).frame.1 = .expired ∧
      advanceAll^[2] ws = [Wave.advance^[2] still, Wave.advance^[2] plain] ∧
      advanceAll^[3] ws = [Wave.advance^[3] still] := by
  intro endless still plain ws
  have new : ∀ w ∈ ws, w.IsNew := by
    simp only [ws, List.forall_mem_cons]
    exact ⟨⟨_, _, _, _, _, _, rfl⟩, ⟨_, _, _, _, _, _, rfl⟩, ⟨_, _, _, _, _, _, rfl⟩,
      List.forall_mem_nil _⟩
  obtain ⟨forward, left⟩ := waves_move_forward
  have expired : (Wave.advance^[1] endless).state = .expired := by decide +kernel
  obtain ⟨-, -, -, -, -, -, -, -, stays⟩ := forward endless (new endless (by simp [ws])) 1
  refine ⟨new, by decide +kernel, stays expired 1 le_rfl, stays expired 4 (by decide), ?_, ?_⟩
  · have states : ws.map (fun w => (Wave.advance^[2] w).state) = [.expired, .growing, .growing] := by
      decide +kernel
    rw [left ws new 2 (by decide)]
    simp_all [ws]
  · have states : ws.map (fun w => (Wave.advance^[3] w).state) = [.expired, .growing, .expired] := by
      decide +kernel
    rw [left ws new 3 (by decide)]
    simp_all [ws]

end Wave
end AnimatedCanvas
