import AnimatedCanvas.Particle
import AnimatedCanvas.Proofs.Binary64.Rounding

namespace AnimatedCanvas

open Binary64

def IsSide (x : Float) : Prop := x = 0.0 ∨ 0.0 < x ∧ x.isFinite = true

theorem isSide_side (x : Float) : IsSide (Size.side x) := by
  unfold Size.side nonnegative
  split
  next finite =>
    split
    next positive => exact .inr ⟨positive, finite⟩
    next => exact .inl rfl
  next => exact .inl rfl

theorem IsSide.isFinite {x : Float} (h : IsSide x) : x.isFinite = true := by
  rcases h with rfl | ⟨-, finite⟩
  · rfl
  · exact finite

theorem IsSide.value_nonneg {x : Float} (h : IsSide x) : 0 ≤ value x := by
  rcases h with rfl | ⟨positive, -⟩
  · exact le_rfl
  · have := (lt_iff.mp positive).2.2
    rw [value_zero] at this
    exact this.le

namespace Particle

theorem isOut_eq_false {extent coordinate : Float} :
    isOut extent coordinate = false ↔ ¬ coordinate < 0.0 ∧ ¬ coordinate > extent := by
  simp [isOut]

theorem isOut_zero {extent : Float} (h : IsSide extent) : isOut extent 0.0 = false := by
  rw [isOut_eq_false]
  have nonneg := h.value_nonneg
  constructor
  · intro below
    exact lt_irrefl _ (lt_iff.mp below).2.2
  · intro above
    have := (lt_iff.mp above).2.2
    rw [value_zero] at this
    linarith

theorem isOut_self {extent : Float} (h : IsSide extent) : isOut extent extent = false := by
  rw [isOut_eq_false]
  have nonneg := h.value_nonneg
  constructor
  · intro below
    have := (lt_iff.mp below).2.2
    rw [value_zero] at this
    linarith
  · intro above
    exact lt_irrefl _ (lt_iff.mp above).2.2

theorem isOut_bounce {extent : Float} (h : IsSide extent) (coordinate speed : Float) :
    isOut extent (bounce extent coordinate speed).1 = false := by
  have clamp : nonnegative extent = extent := by
    unfold nonnegative
    rcases h with rfl | ⟨positive, -⟩
    · split <;> rfl
    · exact if_pos positive
  unfold bounce
  split
  next =>
    simp only [clamp, clampTo]
    split
    next => exact isOut_zero h
    next notBelow =>
      split
      next => exact isOut_self h
      next notAbove => exact isOut_eq_false.mpr ⟨notBelow, notAbove⟩
  next inside => simpa using inside

def IsClamped (size : Size) : Prop := IsSide size.width ∧ IsSide size.height

theorem isClamped_clamped (size : Size) : IsClamped size.clamped :=
  ⟨isSide_side size.width, isSide_side size.height⟩

theorem isOutside_reflect {size : Size} (h : IsClamped size) (p : Particle) :
    (p.reflect size).isOutside size = false := by
  rw [isOutside, Bool.or_eq_false_iff]
  exact ⟨isOut_bounce h.1 p.x p.speedX, isOut_bounce h.2 p.y p.speedY⟩

end Particle

theorem not_beyond_margin {extent margin x : Float} (side : IsSide extent)
    (margin_nonneg : margin ≥ 0.0) (margin_finite : margin.isFinite = true)
    (inside : Particle.isOut extent x = false) : ¬ x < -margin ∧ ¬ x > extent + margin := by
  obtain ⟨notBelow, notAbove⟩ := Particle.isOut_eq_false.mp inside
  obtain ⟨-, number, nonneg⟩ := le_iff.mp margin_nonneg
  rw [value_zero] at nonneg
  constructor
  · intro far
    obtain ⟨real, -, less⟩ := lt_iff.mp far
    rw [value_neg] at less
    refine notBelow (lt_iff.mpr ⟨real, isNaN_zero, ?_⟩)
    rw [value_zero]
    linarith
  · intro far
    obtain ⟨-, real, less⟩ := lt_iff.mp far
    have numeric := isNaN_of_isFinite side.isFinite
    have wider := le_value_add side.isFinite margin_finite numeric (by linarith)
    exact notAbove (lt_iff.mpr ⟨numeric, real, wider.trans_lt less⟩)

theorem isFarOutside_eq_false {size : Size} {margin : Float} {p : Particle}
    (clamped : Particle.IsClamped size) (margin_nonneg : margin ≥ 0.0)
    (margin_finite : margin.isFinite = true) (inside : p.isOutside size = false) :
    size.isFarOutside p.position margin = false := by
  obtain ⟨insideX, insideY⟩ := Bool.or_eq_false_iff.mp inside
  have x := not_beyond_margin clamped.1 margin_nonneg margin_finite insideX
  have y := not_beyond_margin clamped.2 margin_nonneg margin_finite insideY
  simp [Size.isFarOutside, Particle.position, x, y]

end AnimatedCanvas
