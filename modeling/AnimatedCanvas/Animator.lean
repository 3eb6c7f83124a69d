import AnimatedCanvas.Scene

/-!
The frame loop of one scene on one surface.

An animator asks for a frame, steps and draws its scene when the frame comes, and asks again. Its
functions say what is to be asked for or withdrawn; the queue of frames belongs to the host. Pointer
and size changes reach the scene at once and are seen in the next frame.
-/

namespace AnimatedCanvas

structure Animator (α : Type) where
  surface : String
  scene : α
  size : Size
  /-- The handle of the frame that it waits for. -/
  pending : Option Nat
  isRunning : Bool
  isDestroyed : Bool
  frames : Nat

namespace Animator

variable {α : Type} [Scene α]

def create (surface : String) (scene : α) (size : Size) : Animator α :=
  { surface, scene, size, pending := none, isRunning := false, isDestroyed := false, frames := 0 }

def canStart (a : Animator α) : Bool := !a.isRunning && !a.isDestroyed

def start (a : Animator α) (handle : Nat) : Animator α :=
  { a with isRunning := true, pending := some handle }

/-- Stops the loop for good and clears the scene. The frame it waits for has to be withdrawn. -/
def destroy (a : Animator α) : Animator α :=
  if a.isDestroyed then a
  else
    { a with
      isDestroyed := true, isRunning := false, pending := none, scene := Scene.clear a.scene }

/-- Its frame has come: whether it is drawn depends on the loop and on the surface. -/
def draws (a : Animator α) (isAttached : Bool) : Bool := !a.isDestroyed && a.isRunning && isAttached

def drawn (a : Animator α) (handle : Nat) : Animator α :=
  { a with scene := Scene.step a.scene, frames := a.frames + 1, pending := some handle }

def frameCommands (a : Animator α) : List DrawCommand := Scene.draw (Scene.step a.scene)

/-- A frame that is not drawn, which ends the loop. -/
def skipped (a : Animator α) : Animator α := { a with pending := none, isRunning := false }

def withScene (a : Animator α) (f : α → α) : Animator α :=
  if a.isDestroyed then a else { a with scene := f a.scene }

def pointerMove (a : Animator α) (position : Point) : Animator α :=
  a.withScene (Scene.pointerMove position)

def pointerLeave (a : Animator α) : Animator α := a.withScene Scene.pointerLeave

def click (a : Animator α) (position : Point) : Animator α := a.withScene (Scene.click position)

def resize (a : Animator α) (size : Size) : Animator α :=
  if a.isDestroyed then a else { a with size, scene := Scene.resize size a.scene }

variable [Scene.Reserving α]

def reserveClick? (a : Animator α) : Option Unit :=
  if a.isDestroyed then some () else Scene.Reserving.click? a.scene

def reserveResize? (a : Animator α) : Option Unit :=
  if a.isDestroyed then some () else Scene.Reserving.resize? a.scene

end Animator
end AnimatedCanvas
