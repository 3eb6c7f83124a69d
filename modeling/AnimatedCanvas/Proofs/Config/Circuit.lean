import AnimatedCanvas.Config.Circuit
import AnimatedCanvas.Proofs.Config.Field

namespace AnimatedCanvas

open Check

@[mk_iff]
structure CircuitConfig.Valid (c : CircuitConfig) : Prop where
  tracks : c.tracks ≠ 0
  dualChance : InUnit c.dualChance
  timeStep : c.timeStep.Drawable ∧ ¬ c.timeStep.min ≤ 0.0
  tail : AtLeastZero c.tail
  sweepRate : AtLeastZero c.sweepRate
  padding : AtLeastZero c.padding

theorem CircuitConfig.validate_eq_ok {c : CircuitConfig} : c.validate = .ok () ↔ c.Valid := by
  rw [valid_iff]
  simp [validate, bind_eq_ok, holds_eq_ok, unit_eq_ok, Span.check_eq_ok, atLeastZero_eq_ok,
    and_assoc]

end AnimatedCanvas
