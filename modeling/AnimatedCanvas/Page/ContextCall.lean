import AnimatedCanvas.Surface.Command

/-!
Calls on a canvas and its drawing context, and the calls that make up each drawing command.
-/

namespace AnimatedCanvas

inductive ContextCall where
  | width (pixels : Nat)
  | height (pixels : Nat)
  | setTransform (scaleX skewY skewX scaleY shiftX shiftY : Float)
  | clearRect (origin : Point) (size : Size)
  | fillRect (origin : Point) (size : Size)
  | beginPath
  | arc (center : Point) (radius first last : Float)
  | moveTo (position : Point)
  | lineTo (position : Point)
  | fill
  | stroke
  | fillStyle (color : Color)
  /-- Fills with the gradient made last. -/
  | fillGradient
  | strokeStyle (color : Color)
  | lineWidth (width : Float)
  | font (font : String)
  | textAlign (align : TextAlign)
  | textBaseline (baseline : String)
  | fillText (text : String) (position : Point)
  | radialGradient (inner : Point) (innerRadius : Float) (outer : Point) (outerRadius : Float)
  | colorStop (offset : Float) (color : Color)

namespace ContextCall

def line (name : String) (numbers : List Float) : String :=
  " ".intercalate (name :: numbers.map Decimal.text)

def logLine : ContextCall → String
  | .width pixels => "width " ++ toString pixels
  | .height pixels => "height " ++ toString pixels
  | .setTransform a b c d e f => line "setTransform" [a, b, c, d, e, f]
  | .clearRect o s => line "clearRect" [o.x, o.y, s.width, s.height]
  | .fillRect o s => line "fillRect" [o.x, o.y, s.width, s.height]
  | .beginPath => "beginPath"
  | .arc c radius first last => line "arc" [c.x, c.y, radius, first, last]
  | .moveTo p => line "moveTo" [p.x, p.y]
  | .lineTo p => line "lineTo" [p.x, p.y]
  | .fill => "fill"
  | .stroke => "stroke"
  | .fillStyle color => "fillStyle " ++ color.css
  | .fillGradient => "fillStyle gradient"
  | .strokeStyle color => "strokeStyle " ++ color.css
  | .lineWidth w => line "lineWidth" [w]
  | .font name => "font " ++ name
  | .textAlign align => "textAlign " ++ align.name
  | .textBaseline baseline => "textBaseline " ++ baseline
  | .fillText text p => line ("fillText " ++ text) [p.x, p.y]
  | .radialGradient i r o s => line "createRadialGradient" [i.x, i.y, r, o.x, o.y, s]
  | .colorStop offset color => line "addColorStop" [offset] ++ " " ++ color.css

def fullTurn : Float := 6.283185307179586

def circle (center : Point) (radius : Float) : List ContextCall :=
  [.beginPath, .arc center (nonnegative radius) 0.0 fullTurn]

def stroked (color : Color) (width : Float) : List ContextCall :=
  [.strokeStyle color, .lineWidth width, .stroke]

/-- Whether a gradient around a point can be made: all its numbers must be finite. -/
def hasGradient (center : Point) (radius : Float) : Bool :=
  center.x.isFinite && center.y.isFinite && (nonnegative radius).isFinite

def glow (center : Point) (radius : Float) (inner outer : Color) : List ContextCall :=
  .radialGradient center 0.0 center (nonnegative radius) ::
    if hasGradient center radius then
      [.colorStop 0.0 inner, .colorStop 1.0 outer] ++ circle center radius ++ [.fillGradient, .fill]
    else []

end ContextCall

def DrawCommand.calls (size : Size) : DrawCommand → List ContextCall
  | .clear => [.clearRect .origin size]
  | .fillRect origin size color => [.fillStyle color, .fillRect origin size]
  | .fillCircle center radius color =>
    ContextCall.circle center radius ++ [.fillStyle color, .fill]
  | .strokeCircle center radius color width =>
    ContextCall.circle center radius ++ ContextCall.stroked color width
  | .fillGlow center radius inner outer => ContextCall.glow center radius inner outer
  | .line start finish color width =>
    [.beginPath, .moveTo start, .lineTo finish] ++ ContextCall.stroked color width
  | .fillText text position style =>
    [.font style.font, .textAlign style.align, .textBaseline "middle", .fillStyle style.color,
      .fillText text position]

end AnimatedCanvas
