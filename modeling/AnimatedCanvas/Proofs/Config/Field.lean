import AnimatedCanvas.Config.Field
import AnimatedCanvas.Proofs.Binary64.Arithmetic
import Mathlib.Tactic.MkIffOfInductiveProp

namespace AnimatedCanvas

structure Span.Drawable (s : Span) : Prop where
  min : s.min.isFinite = true
  max : s.max.isFinite = true
  width : (s.max - s.min).isFinite = true
  order : ¬ s.min > s.max

theorem Span.check_eq_ok {s : Span} {field : String} : s.check field = .ok () ↔ s.Drawable := by
  unfold Span.check
  split
  next infinite =>
    refine ⟨(nomatch ·), fun h => ?_⟩
    simp [h.min, h.max] at infinite
  next finite =>
    rw [Bool.not_eq_true', Bool.not_eq_false, Bool.and_eq_true] at finite
    split
    next wide =>
      refine ⟨(nomatch ·), fun h => ?_⟩
      simp [h.width] at wide
    next narrow =>
      rw [Bool.not_eq_true', Bool.not_eq_false] at narrow
      split
      next reversed => exact ⟨(nomatch ·), fun h => absurd reversed h.order⟩
      next order => exact ⟨fun _ => ⟨finite.1, finite.2, narrow, order⟩, fun _ => rfl⟩

namespace Check

theorem bind_eq_ok {ε : Type} {a : Except ε Unit} {f : Unit → Except ε Unit} :
    (a >>= f) = .ok () ↔ a = .ok () ∧ f () = .ok () := by
  cases a <;> simp [bind, Except.bind]

def InUnit (x : Float) : Prop := x ≥ 0.0 ∧ x ≤ 1.0

def AtLeastZero (x : Float) : Prop := x ≥ 0.0 ∧ x.isFinite = true

theorem unit_eq_ok {field : String} {x : Float} : unit field x = .ok () ↔ InUnit x := by
  unfold unit InUnit
  split <;> simp_all

theorem atLeastZero_eq_ok {field : String} {x : Float} :
    atLeastZero field x = .ok () ↔ AtLeastZero x := by
  unfold atLeastZero AtLeastZero
  split <;> simp_all

theorem palette_eq_ok {field : String} {colors : List Color} :
    palette field colors = .ok () ↔ colors ≠ [] := by
  unfold palette
  cases colors <;> simp

theorem holds_eq_ok {condition : Bool} {field reason : String} :
    holds condition field reason = .ok () ↔ condition = true := by
  unfold holds
  split <;> simp_all

theorem radiusSpan_eq_ok {field : String} {s : Span} :
    radiusSpan field s = .ok () ↔ s.Drawable ∧ ¬ s.min ≤ 0.0 := by
  simp [radiusSpan, bind_eq_ok, Span.check_eq_ok, holds_eq_ok]

theorem opacitySpan_eq_ok {field : String} {s : Span} :
    opacitySpan field s = .ok () ↔ s.Drawable ∧ InUnit s.min ∧ InUnit s.max := by
  simp [opacitySpan, bind_eq_ok, Span.check_eq_ok, unit_eq_ok]

end Check

open Check

@[mk_iff]
structure FieldConfig.Valid (c : FieldConfig) : Prop where
  palette : c.palette ≠ []
  radius : c.radius.Drawable ∧ ¬ c.radius.min ≤ 0.0
  speed : c.speed.Drawable
  opacity : c.opacity.Drawable ∧ InUnit c.opacity.min ∧ InUnit c.opacity.max
  damping : c.damping > 0.0 ∧ c.damping ≤ 1.0
  retireMargin : AtLeastZero c.retireMargin
  glowScale : AtLeastZero c.glowScale
  backdrop : ∀ color alpha, c.backdrop = .fade color alpha → InUnit alpha
  trailOpacity : InUnit c.trail.opacity
  trailScale : AtLeastZero c.trail.scale
  pointerRadius : AtLeastZero c.pointer.radius
  pointerStrength : AtLeastZero c.pointer.strength
  burstSpeed : c.burst.speed.Drawable
  burstRadius : c.burst.radius.Drawable ∧ ¬ c.burst.radius.min ≤ 0.0
  burstOpacity : c.burst.opacity.Drawable ∧ InUnit c.burst.opacity.min ∧ InUnit c.burst.opacity.max
  burstFade : InUnit c.burst.fade
  burstFades : 0 < c.burst.count → ¬ c.burst.fade ≤ 0.0
  wavesChance : InUnit c.waves.chance
  wavesMaxRadius : c.waves.maxRadius.Drawable
  wavesSpeed : c.waves.speed.Drawable
  wavesGrow : ¬ c.waves.speed.min ≤ 0.0
  wavesOpacity : InUnit c.waves.opacity
  wavesFade : InUnit c.waves.fade
  wavesPalette : c.waves.palette ≠ []
  wavesLineWidth : AtLeastZero c.waves.lineWidth
  linksDistance : AtLeastZero c.links.distance
  linksOpacity : InUnit c.links.opacity
  linksWidth : AtLeastZero c.links.width

theorem Check.InUnit.finite {x : Float} (h : InUnit x) : x.isFinite = true := by
  obtain ⟨-, -, nonneg⟩ := Binary64.le_iff.1 h.1
  obtain ⟨number, -, le⟩ := Binary64.le_iff.1 h.2
  exact Binary64.isFinite_of_nonneg_of_le number nonneg rfl le

theorem FieldConfig.Valid.finite_damping {c : FieldConfig} (h : c.Valid) :
    c.damping.isFinite = true ∧ 0 < Binary64.value c.damping := by
  obtain ⟨-, number, positive⟩ := Binary64.lt_iff.1 h.damping.1
  rw [Binary64.value_zero] at positive
  exact ⟨Binary64.isFinite_of_nonneg_of_le number positive.le rfl
    (Binary64.le_iff.1 h.damping.2).2.2, positive⟩

theorem FieldConfig.validate_eq_ok {c : FieldConfig} : c.validate = .ok () ↔ c.Valid := by
  rw [valid_iff]
  unfold validate
  cases c.backdrop with
  | clear =>
      simp only [bind_eq_ok, palette_eq_ok, radiusSpan_eq_ok, Span.check_eq_ok, opacitySpan_eq_ok,
        holds_eq_ok, atLeastZero_eq_ok, unit_eq_ok, Bool.and_eq_true, decide_eq_true_eq,
        Bool.not_eq_true', Bool.and_eq_false_imp, decide_eq_false_iff_not, gt_iff_lt, reduceCtorEq,
        false_implies, implies_true, true_and]
  | fade color alpha =>
      simp only [bind_eq_ok, palette_eq_ok, radiusSpan_eq_ok, Span.check_eq_ok, opacitySpan_eq_ok,
        holds_eq_ok, atLeastZero_eq_ok, unit_eq_ok, Bool.and_eq_true, decide_eq_true_eq,
        Bool.not_eq_true', Bool.and_eq_false_imp, decide_eq_false_iff_not, gt_iff_lt,
        Backdrop.fade.injEq, and_imp, forall_eq', forall_apply_eq_imp_iff]

end AnimatedCanvas
