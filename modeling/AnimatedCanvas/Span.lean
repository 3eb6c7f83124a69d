import AnimatedCanvas.Bounds
import AnimatedCanvas.Config.Error
import AnimatedCanvas.Decimal.Layout
import AnimatedCanvas.Random

/-!
Ranges that random values are drawn from.
-/

namespace AnimatedCanvas

/-- The range `[min, max)`; with equal bounds it holds `min` alone. -/
structure Span where
  min : Float
  max : Float

namespace Span

def symmetric (half : Float) : Span := ⟨-half, half⟩

/-- A value of the range. A range without width yields its lower bound and draws nothing. -/
def sample {γ : Type} [Sampler γ] (s : Span) (g : γ) : Float × γ :=
  if s.max > s.min then Sampler.between s.min s.max g else (s.min, g)

def contains (s : Span) (x : Float) : Bool := x ≥ s.min && (x < s.max || x == s.min)

def check (s : Span) (field : String) : Except ConfigError Unit :=
  if !(s.min.isFinite && s.max.isFinite) then .error (.invalid field "bounds must be finite")
  else if !(s.max - s.min).isFinite then .error (.invalid field "width of the range overflows")
  else if s.min > s.max then
    .error (.invalid field
      ("min " ++ Decimal.text s.min ++ " is greater than max " ++ Decimal.text s.max))
  else .ok ()

end Span
end AnimatedCanvas
