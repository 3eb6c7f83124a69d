import AnimatedCanvas.Surface.Command

/-!
Surfaces that keep a log of what is drawn on them.
-/

namespace AnimatedCanvas

structure Recorder where
  /-- The size it was made with. -/
  size : Size
  /-- The size that the next measuring will find. -/
  layout : Size
  isAttached : Bool
  log : Array DrawCommand

namespace Recorder

def create (size : Size) : Recorder := { size, layout := size, isAttached := true, log := #[] }

def draw (r : Recorder) (commands : List DrawCommand) : Recorder :=
  { r with log := r.log ++ commands }

def setLayout (r : Recorder) (layout : Size) : Recorder := { r with layout }

def detach (r : Recorder) : Recorder := { r with isAttached := false }

def drain (r : Recorder) : Recorder := { r with log := #[] }

def commands (r : Recorder) : List DrawCommand := r.log.toList

def transcript (r : Recorder) : String := DrawCommand.transcript r.commands

@[simp] theorem commands_create (size : Size) : (create size).commands = [] := rfl

@[simp] theorem commands_draw (r : Recorder) (cs : List DrawCommand) :
    (r.draw cs).commands = r.commands ++ cs := by
  simp [draw, commands]

@[simp] theorem commands_drain (r : Recorder) : r.drain.commands = [] := rfl

end Recorder
end AnimatedCanvas
