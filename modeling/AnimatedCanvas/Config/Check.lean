import AnimatedCanvas.Color
import AnimatedCanvas.Span

/-!
Checks on single values of a configuration. Each one names the field that it refuses.
-/

namespace AnimatedCanvas.Check

def unit (field : String) (x : Float) : Except ConfigError Unit :=
  if x ≥ 0.0 && x ≤ 1.0 then .ok ()
  else .error (.invalid field (Decimal.text x ++ " is outside [0, 1]"))

def atLeastZero (field : String) (x : Float) : Except ConfigError Unit :=
  if x ≥ 0.0 && x.isFinite then .ok ()
  else .error (.invalid field (Decimal.text x ++ " must be >= 0"))

def palette (field : String) (colors : List Color) : Except ConfigError Unit :=
  if colors.isEmpty then .error (.invalid field "palette must not be empty") else .ok ()

def holds (condition : Bool) (field reason : String) : Except ConfigError Unit :=
  if condition then .ok () else .error (.invalid field reason)

def radiusSpan (field : String) (s : Span) : Except ConfigError Unit := do
  s.check field
  holds (!(s.min ≤ 0.0)) field "radius must be > 0"

def opacitySpan (field : String) (s : Span) : Except ConfigError Unit := do
  s.check field
  unit field s.min
  unit field s.max

end AnimatedCanvas.Check
