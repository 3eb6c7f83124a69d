import AnimatedCanvas.Config.Check

/-!
Configuration of a circuit diagram, and what makes it usable.
-/

namespace AnimatedCanvas

structure CircuitConfig where
  tracks : Nat := 5
  gateCount : Nat := 30
  /-- Probability that a gate spans two tracks. -/
  dualChance : Float := 0.3
  timeStep : Span := ⟨1.0, 3.0⟩
  /-- Time after the last gate before the sweep starts over. -/
  tail : Float := 5.0
  /-- Time swept per frame. -/
  sweepRate : Float := 0.1
  padding : Float := 40.0

def CircuitConfig.validate (c : CircuitConfig) : Except ConfigError Unit := do
  Check.holds (c.tracks != 0) "tracks" "at least one track is required"
  Check.unit "dual_chance" c.dualChance
  c.timeStep.check "time_step"
  Check.holds (!(c.timeStep.min ≤ 0.0)) "time_step"
    "steps must be > 0 so gate times strictly increase"
  Check.atLeastZero "tail" c.tail
  Check.atLeastZero "sweep_rate" c.sweepRate
  Check.atLeastZero "padding" c.padding

end AnimatedCanvas
