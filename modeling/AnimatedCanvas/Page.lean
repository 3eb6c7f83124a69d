import AnimatedCanvas.Animator
import AnimatedCanvas.FrameQueue
import AnimatedCanvas.Page.Element
import AnimatedCanvas.Random.Generator

/-!
A page: its elements, its window and what the window offers. Frames can be asked for, listeners wait
for events, timers run, and messages go to a console.

What belongs to an animation is known by the animation's key: the frames it asked for and its
listeners.
-/

namespace AnimatedCanvas

inductive Signal where
  | resize
  | pointerMove
  | click
  | pointerLeave
deriving DecidableEq

def Signal.eventType : Signal → String
  | .resize => "resize"
  | .pointerMove => "mousemove"
  | .click => "click"
  | .pointerLeave => "mouseleave"

inductive EventTarget where
  | window
  | element (key : Nat)
deriving DecidableEq

structure Listener where
  target : EventTarget
  signal : Signal
  owner : Nat
deriving DecidableEq

structure Mount where
  key : Nat
  canvas : Nat
  animator : Animator (Animation Generator)

structure Timer where
  remaining : Nat
  button : Nat
  label : String

inductive Clipboard where
  | accepts
  | waits
  | refuses (reason : String)

inductive Level where
  | info
  | warn
  | error
deriving DecidableEq

def Level.name : Level → String
  | .info => "info"
  | .warn => "warn"
  | .error => "error"

structure Message where
  level : Level
  text : String
deriving DecidableEq

structure Page where
  tree : ElementTree
  hasWindow : Bool := true
  hasDocument : Bool := true
  /-- Device pixels per logical pixel, as the window reports it. -/
  reportedRatio : Float := 1.0
  now : Float := 0.0
  random : Float := 0.0
  /-- With what asking for a frame fails, if it does. -/
  frameFailure : Option String := none
  refusal : EventTarget → Signal → Option String := fun _ _ => none
  clipboard : Clipboard := .accepts
  frames : FrameQueue Nat := .empty
  listeners : List Listener := []
  mounts : List Mount := []
  lastKey : Nat := 0
  timers : List Timer := []
  writes : List String := []
  /-- The buttons whose texts the clipboard has not answered for. -/
  unsettled : List Nat := []
  /-- Messages, the latest first. -/
  console : List Message := []

namespace Page

/-! ## Settings -/

inductive Setting where
  | noWindow
  | document (isThere : Bool)
  | ratio (reported : Float)
  | now (reading : Float)
  | random (number : Float)
  | frameFailure (reason : Option String)
  | refusal (refusal : EventTarget → Signal → Option String)
  | clipboard (clipboard : Clipboard)

def Setting.listenFailure (reason : Option String) : Setting := .refusal fun _ _ => reason

def set (p : Page) : Setting → Page
  | .noWindow => { p with hasWindow := false }
  | .document isThere => { p with hasDocument := isThere }
  | .ratio reported => { p with reportedRatio := reported }
  | .now reading => { p with now := reading }
  | .random number => { p with random := number }
  | .frameFailure reason => { p with frameFailure := reason }
  | .refusal refusal => { p with refusal }
  | .clipboard clipboard => { p with clipboard }

/-! ## Console -/

def say (p : Page) (level : Level) (text : String) : Page :=
  { p with console := ⟨level, text⟩ :: p.console }

def thrownText (value : String) : String := "JsValue(" ++ Text.quoted value ++ ")"

/-! ## Elements -/

def modifyElement (p : Page) (key : Nat) (f : ElementState → ElementState) : Page :=
  { p with tree := p.tree.modifyState key f }

def element? (p : Page) (key : Nat) : Option ElementState := (p.tree.get? key).map (·.state)

def ratio (p : Page) : Float := pixelRatio (if p.hasWindow then p.reportedRatio else 1.0)

def measure (p : Page) (canvas : Nat) : Page := p.modifyElement canvas (·.measured p.ratio)

def shownSize (p : Page) (key : Nat) : Size :=
  match p.element? key with
  | some e => e.rect.size
  | none => .zero

/-! ## Frames -/

/-- Asks for a frame. Where that fails, it is said, and the handle is zero. -/
def requestFrame (p : Page) (owner : Nat) : Nat × Page :=
  match p.frameFailure with
  | some reason => (0, p.say .warn ("requestAnimationFrame failed: " ++ thrownText reason))
  | none =>
    let (handle, frames) := p.frames.request owner
    (handle, { p with frames })

/-- Withdraws a request for a frame. No request has the handle zero. -/
def cancelFrame (p : Page) (handle : Nat) : Page := { p with frames := p.frames.cancel handle }

/-! ## Mounts -/

def mount? (p : Page) (key : Nat) : Option Mount := p.mounts.find? (·.key == key)

def modifyMount (p : Page) (key : Nat) (f : Animator (Animation Generator) →
    Animator (Animation Generator)) : Page :=
  { p with
    mounts := p.mounts.map fun m => if m.key == key then { m with animator := f m.animator } else m }

end Page
end AnimatedCanvas
