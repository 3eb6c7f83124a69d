import AnimatedCanvas.Config.Error

/-!
What can go wrong when an animation is put on a surface.
-/

namespace AnimatedCanvas

inductive CanvasError where
  | surfaceNotFound (id : String)
  /-- The element is there, but offers nothing to draw on. -/
  | noDrawingContext (id : String)
  | config (error : ConfigError)
deriving DecidableEq

def CanvasError.message : CanvasError → String
  | .surfaceNotFound id => "canvas element with id \"" ++ id ++ "\" not found"
  | .noDrawingContext id => "could not get a 2D drawing context from \"" ++ id ++ "\""
  | .config error => error.message

end AnimatedCanvas
