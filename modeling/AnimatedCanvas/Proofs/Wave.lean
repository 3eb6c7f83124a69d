import AnimatedCanvas.Proofs.Binary64.Distance
import AnimatedCanvas.Wave
import Mathlib.Logic.Function.Iterate

namespace AnimatedCanvas

open Binary64

theorem zero_le_nonnegative (x : Float) : 0.0 ≤ nonnegative x := by
  unfold nonnegative
  split
  next positive =>
    obtain ⟨zero, number, less⟩ := lt_iff.mp positive
    exact le_iff.mpr ⟨zero, number, less.le⟩
  next => exact le_iff.mpr ⟨rfl, rfl, le_rfl⟩

theorem nonnegative_of_not_pos {x : Float} (h : ¬ x > 0.0) : nonnegative x = 0.0 := if_neg h

theorem zero_le_zero : (0.0 : Float) ≤ 0.0 := le_iff.mpr ⟨rfl, rfl, le_rfl⟩

theorem clampTo_unit_not_lt (x : Float) : ¬ clampTo 0.0 1.0 x < 0.0 := by
  have ordered {y : Float} (h : 0.0 ≤ y) : ¬ y < 0.0 := fun less =>
    (lt_iff.mp less).2.2.not_ge (le_iff.mp h).2.2
  unfold clampTo
  split
  next => exact ordered zero_le_zero
  next inside =>
    split
    next => exact ordered (le_iff.mpr ⟨rfl, rfl, by simp⟩)
    next => exact inside

theorem Binary64.value_sub_le {x d : Float} (finite : x.isFinite = true) (nonneg : 0.0 ≤ d) :
    (x - d).isNaN = false ∧ value (x - d) ≤ value x := by
  obtain ⟨-, number, nonneg⟩ := le_iff.mp nonneg
  rw [value_zero] at nonneg
  rcases isFinite_or_isInfinite_positive number nonneg with finite' | infinite
  · obtain ⟨number, between⟩ := between_sub finite finite'
    exact ⟨number, (between x (isNaN_of_isFinite finite)).2 (by linarith)⟩
  · have negative : IsInfinite .negative (-d) := by
      rw [IsInfinite, unpack_neg, infinite]
      rfl
    have lowest := negative.add_left finite
    rw [← sub_eq_add] at lowest
    refine ⟨lowest.isNaN, ?_⟩
    rw [lowest.value]
    exact (value_bounds finite).1.le

namespace Wave

theorem state_eq_expired {w : Wave} :
    w.state = .expired ↔ w.radius ≥ w.maxRadius ∨ w.opacity ≤ 0.0 := by
  simp [state, or_iff_not_imp_left]

structure Moving (w : Wave) : Prop where
  radius : 0.0 ≤ w.radius
  opacity : ¬ w.opacity < 0.0

theorem moving_start (center : Point) (maxRadius speed opacity fade : Float) (color : Color) :
    (start center maxRadius speed opacity fade color).Moving where
  radius := zero_le_zero
  opacity := clampTo_unit_not_lt opacity

variable {w : Wave}

theorem Moving.radius_le_advance (h : w.Moving) : w.radius ≤ w.advance.radius := by
  obtain ⟨-, number, nonneg⟩ := le_iff.mp h.radius
  obtain ⟨-, number', nonneg'⟩ := le_iff.mp (zero_le_nonnegative w.speed)
  obtain ⟨number'', le, -⟩ := le_add_of_nonneg_numbers number number' nonneg nonneg'
  exact le_iff.mpr ⟨number, number'', le⟩

theorem Moving.advance (h : w.Moving) : w.advance.Moving where
  radius := by
    obtain ⟨zero, -, nonneg⟩ := le_iff.mp h.radius
    obtain ⟨-, number, le⟩ := le_iff.mp h.radius_le_advance
    exact le_iff.mpr ⟨zero, number, nonneg.trans le⟩
  opacity := fun less =>
    (lt_iff.mp less).2.2.not_ge (le_iff.mp (zero_le_nonnegative _)).2.2

theorem Moving.opacity_advance (h : w.Moving) (invisible : w.opacity ≤ 0.0) :
    w.advance.opacity ≤ 0.0 := by
  obtain ⟨number, zero, le⟩ := le_iff.mp invisible
  have nonneg : value 0.0 ≤ value w.opacity := by
    by_contra negative
    exact h.opacity (lt_iff.mpr ⟨number, zero, not_le.mp negative⟩)
  have finite : w.opacity.isFinite = true :=
    isFinite_of_nonneg_of_le number (by rwa [value_zero] at nonneg) (y := 0.0) rfl le
  have falls := (value_sub_le finite (zero_le_nonnegative w.fade)).2
  have spent : ¬ w.opacity - nonnegative w.fade > 0.0 := fun positive =>
    (lt_iff.mp positive).2.2.not_ge (falls.trans le)
  have same : w.advance.opacity = 0.0 := nonnegative_of_not_pos spent
  rw [same]
  exact zero_le_zero

theorem Moving.expired_advance (h : w.Moving) (expired : w.state = .expired) :
    w.advance.state = .expired := by
  rw [state_eq_expired] at expired ⊢
  rcases expired with grown | invisible
  · obtain ⟨number, -, le⟩ := le_iff.mp grown
    obtain ⟨-, number', le'⟩ := le_iff.mp h.radius_le_advance
    exact .inl (le_iff.mpr ⟨number, number', le.trans le'⟩)
  · exact .inr (h.opacity_advance invisible)

theorem Moving.expired_iterate (h : w.Moving) (expired : w.state = .expired) (n : Nat) :
    (Wave.advance^[n] w).state = .expired := by
  induction n generalizing w with
  | zero => exact expired
  | succ n ih => exact ih h.advance (h.expired_advance expired)

def aged? (n : Nat) (w : Wave) : Option Wave :=
  if n = 0 ∨ (advance^[n] w).state = .growing then some (advance^[n] w) else none

theorem aged?_zero (w : Wave) : aged? 0 w = some w := if_pos (.inl rfl)

theorem advanceAll_eq (ws : List Wave) : advanceAll ws = ws.filterMap (aged? 1) := by
  rw [advanceAll, ← List.filterMap_eq_filter, List.filterMap_map]
  congr 1
  funext w
  cases same : w.advance.state <;> simp [Option.guard, aged?, same]

theorem Moving.aged?_succ (h : w.Moving) (n : Nat) :
    aged? (n + 1) w = (aged? 1 w).bind (aged? n) := by
  cases now : w.advance.state with
  | expired =>
      have later := h.advance.expired_iterate now n
      simp [aged?, now, later]
  | growing =>
      have first : aged? 1 w = some w.advance := if_pos (.inr now)
      rw [first, Option.bind_some]
      cases n with
      | zero => rw [first, aged?_zero]
      | succ n => simp [aged?]

end Wave
end AnimatedCanvas
