import AnimatedCanvas.Color
import AnimatedCanvas.Geometry

/-!
Drawing commands. A scene's frame is the list of its commands; a surface decides what becomes of
them. `DrawCommand.logLine` is the form in which a log of commands is shown, one to a line.
-/

namespace AnimatedCanvas

inductive TextAlign where
  | left
  | center
deriving DecidableEq

def TextAlign.name : TextAlign → String
  | .left => "left"
  | .center => "center"

structure TextStyle where
  font : String
  color : Color
  align : TextAlign

inductive DrawCommand where
  | clear
  | fillRect (origin : Point) (size : Size) (color : Color)
  | fillCircle (center : Point) (radius : Float) (color : Color)
  | strokeCircle (center : Point) (radius : Float) (color : Color) (width : Float)
  | fillGlow (center : Point) (radius : Float) (inner outer : Color)
  | line (start finish : Point) (color : Color) (width : Float)
  | fillText (text : String) (position : Point) (style : TextStyle)

def Point.text (p : Point) : String := Decimal.text p.x ++ "," ++ Decimal.text p.y

def Size.text (s : Size) : String := Decimal.text s.width ++ "x" ++ Decimal.text s.height

namespace DrawCommand

def logLine : DrawCommand → String
  | .clear => "clear"
  | .fillRect origin size color => "rect " ++ origin.text ++ " " ++ size.text ++ " " ++ color.css
  | .fillCircle center radius color =>
    "circle " ++ center.text ++ " r" ++ Decimal.text radius ++ " " ++ color.css
  | .strokeCircle center radius color width =>
    "ring " ++ center.text ++ " r" ++ Decimal.text radius ++ " " ++ color.css ++ " w" ++
      Decimal.text width
  | .fillGlow center radius inner outer =>
    "glow " ++ center.text ++ " r" ++ Decimal.text radius ++ " " ++ inner.css ++ " -> " ++ outer.css
  | .line start finish color width =>
    "line " ++ start.text ++ " -> " ++ finish.text ++ " " ++ color.css ++ " w" ++ Decimal.text width
  | .fillText text position style =>
    "text " ++ Text.quoted text ++ " " ++ position.text ++ " [" ++ style.font ++ "] " ++
      style.color.css ++ " " ++ style.align.name

def transcript (commands : List DrawCommand) : String :=
  "\n".intercalate (commands.map logLine)

end DrawCommand
end AnimatedCanvas
