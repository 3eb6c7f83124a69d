import AnimatedCanvas.Bounds
import AnimatedCanvas.Config.Error
import AnimatedCanvas.Decimal.Layout
import AnimatedCanvas.Text.Blank
import AnimatedCanvas.Text.Quoted

/-!
Colors: three 8-bit channels and an opacity. Documents write them as `#rrggbb`, drawings as CSS.
-/

namespace AnimatedCanvas

structure Color where
  red : UInt8
  green : UInt8
  blue : UInt8
  alpha : Float

namespace Color

def rgb (red green blue : UInt8) : Color := ⟨red, green, blue, 1.0⟩

def indigo : Color := rgb 0x63 0x66 0xf1
def violet : Color := rgb 0x8b 0x5c 0xf6
def pink : Color := rgb 0xec 0x48 0x99
def emerald : Color := rgb 0x10 0xb9 0x81
def amber : Color := rgb 0xf5 0x9e 0x0b
def white : Color := rgb 0xff 0xff 0xff
def black : Color := rgb 0x00 0x00 0x00

instance : Inhabited Color := ⟨black⟩

/-- The color at another opacity, moved into `[0, 1]`. -/
def withAlpha (c : Color) (alpha : Float) : Color := { c with alpha := clampTo 0.0 1.0 alpha }

def transparent (c : Color) : Color := c.withAlpha 0.0

def css (c : Color) : String :=
  "rgba(" ++ toString c.red.toNat ++ ", " ++ toString c.green.toNat ++ ", " ++
    toString c.blue.toNat ++ ", " ++ Decimal.text c.alpha ++ ")"

/-- The channels as `#rrggbb`; the opacity is not written. -/
def hex (c : Color) : String :=
  String.ofList
    ('#' :: (Text.hexPair c.red.toNat ++ Text.hexPair c.green.toNat ++ Text.hexPair c.blue.toNat))

/-- A channel: two hexadecimal digits, or a plus sign and one. -/
def channel? (high low : Char) : Option UInt8 := do
  let l ← Text.hexDigit? low
  if high = '+' then return UInt8.ofNat l
  let h ← Text.hexDigit? high
  return UInt8.ofNat (16 * h + l)

def read? (text : String) : Option Color :=
  match Text.trimChars text.toList with
  | ['#', r, r', g, g', b, b'] => do
    return rgb (← channel? r r') (← channel? g g') (← channel? b b')
  | _ => none

def read (text : String) : Except ConfigError Color :=
  match read? text with
  | some c => .ok c
  | none => .error (.invalid "color" ("expected #rrggbb, got " ++ Text.quoted text))

end Color
end AnimatedCanvas
