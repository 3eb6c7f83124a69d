import AnimatedCanvas.Page
import AnimatedCanvas.Surface.Error

/-!
Animations on the canvases of a page: setting them up, their listeners and frames, and taking them
down.

An animation listens for the window's changes of size and, if it is interactive, for the pointer on
its canvas. Destroying it removes its listeners and withdraws the frame that it waits for.
-/

namespace AnimatedCanvas

inductive AnimationConfig where
  | field (config : FieldConfig)
  | circuit (config : CircuitConfig)

namespace AnimationConfig

def isInteractive : AnimationConfig → Bool
  | .field c => c.interactive
  | .circuit _ => false

def build (c : AnimationConfig) (size : Size) (random : Generator) :
    Except ConfigError (Animation Generator) := do
  match c with
  | .field c => return .field (← ParticleField.create c size random)
  | .circuit c => return .circuit (← CircuitDiagram.create c size random)

def reserve? : AnimationConfig → Option Unit
  | .field c => ParticleField.reserve? c
  | .circuit c => CircuitDiagram.reserve? c

end AnimationConfig

inductive MountError where
  | noWindow
  | noDocument
  | canvas (error : CanvasError)
  /-- A listener was refused, with this value. -/
  | refused (value : String)

def MountError.reason : MountError → String
  | .noWindow => "no global window"
  | .noDocument => "no document"
  | .canvas e => e.message
  | .refused value => Page.thrownText value

namespace Page

/-! ## Taking down -/

/-- Removes the listeners of an animation, withdraws its frame and stops it for good. -/
def destroyMount (p : Page) (m : Mount) : Page :=
  let p := { p with listeners := p.listeners.filter (·.owner != m.key) }
  let p := match m.animator.pending with
    | some handle => p.cancelFrame handle
    | none => p
  p.modifyMount m.key Animator.destroy

def dropMount (p : Page) (m : Mount) : Page :=
  let p := p.destroyMount m
  { p with mounts := p.mounts.filter (·.key != m.key) }

/-! ## Setting up -/

def openCanvas (p : Page) (id : String) : Except CanvasError Nat :=
  match p.tree.find? id with
  | none => .error (.surfaceNotFound id)
  | some key =>
    if (p.element? key).any (·.isDrawable) then .ok key else .error (.noDrawingContext id)

def seed (p : Page) : UInt64 := p.now.toBits ^^^ p.random.toBits

def listenersOf (m : Mount) (isInteractive : Bool) : List Listener :=
  let onCanvas (signal : Signal) : Listener := ⟨.element m.canvas, signal, m.key⟩
  ⟨.window, .resize, m.key⟩ ::
    if isInteractive then [onCanvas .pointerMove, onCanvas .click, onCanvas .pointerLeave] else []

def addMount (p : Page) (canvas : Nat) (animator : Animator (Animation Generator)) : Mount × Page :=
  let key := p.lastKey + 1
  let (handle, p) := p.requestFrame key
  let m : Mount := { key, canvas, animator := animator.start handle }
  (m, { p with mounts := p.mounts ++ [m], lastKey := key })

def listen (p : Page) : List Listener → Option String × Page
  | [] => (none, p)
  | l :: rest =>
    match p.refusal l.target l.signal with
    | some value => (some value, p)
    | none => listen { p with listeners := p.listeners ++ [l] } rest

/-- Adds the listeners of a fresh animation. Where one is refused, the animation is taken down again,
with the listeners that it has got. -/
def addListeners (p : Page) (m : Mount) (isInteractive : Bool) : Except MountError Nat × Page :=
  match p.listen (listenersOf m isInteractive) with
  | (some value, p) => (.error (.refused value), p.dropMount m)
  | (none, p) => (.ok m.key, p)

def mount (p : Page) (id : String) (config : AnimationConfig) : Except MountError Nat × Page :=
  if !p.hasWindow then (.error .noWindow, p)
  else if !p.hasDocument then (.error .noDocument, p)
  else
    match p.openCanvas id with
    | .error e => (.error (.canvas e), p)
    | .ok canvas =>
      let p := p.measure canvas
      let size := p.shownSize canvas
      match config.build size (.ofSeed p.seed) with
      | .error e => (.error (.canvas (.config e)), p)
      | .ok animation =>
        let (m, p) := p.addMount canvas (.create id animation size)
        p.addListeners m config.isInteractive

/-! ## Events -/

/-- An event reaches a listener. The pointer's position only counts where the event has one. -/
def deliver (client : Option Point) (p : Page) (l : Listener) : Page :=
  match p.mount? l.owner with
  | none => p
  | some m =>
    let position := client.map fun c =>
      localPoint c (((p.element? m.canvas).map (·.rect.corner)).getD .origin)
    match l.signal, position with
    | .resize, _ =>
      if m.animator.isDestroyed then p
      else
        let p := p.measure m.canvas
        p.modifyMount m.key (·.resize (p.shownSize m.canvas))
    | .pointerMove, some position => p.modifyMount m.key (·.pointerMove position)
    | .click, some position => p.modifyMount m.key (·.click position)
    | .pointerLeave, _ => p.modifyMount m.key Animator.pointerLeave
    | .pointerMove, none => p
    | .click, none => p

def listenersFor (p : Page) (target : EventTarget) (type : String) : List Listener :=
  p.listeners.filter fun l => l.target == target && l.signal.eventType == type

/-- An event happens; says how many listeners were called. Nothing happens to a window that is not
there. -/
def dispatch (p : Page) (target : EventTarget) (type : String) (client : Option Point) :
    Option Nat × Page :=
  if target == .window && !p.hasWindow then (none, p)
  else
    let called := p.listenersFor target type
    (some called.length, called.foldl (deliver client) p)

/-! ## Memory -/

def reserveMount? (p : Page) (id : String) (config : AnimationConfig) : Option Unit :=
  if p.hasWindow && p.hasDocument && (p.openCanvas id).isOk then config.reserve? else some ()

def reserveEvent? (client : Option Point) (p : Page) (l : Listener) : Option Unit :=
  match p.mount? l.owner, l.signal with
  | some m, .resize => m.animator.reserveResize?
  | some m, .click => if client.isSome then m.animator.reserveClick? else some ()
  | _, _ => some ()

def deliver? (client : Option Point) (p : Page) (l : Listener) : Option Page := do
  reserveEvent? client p l
  return deliver client p l

def dispatch? (p : Page) (target : EventTarget) (type : String) (client : Option Point) :
    Option (Option Nat × Page) :=
  if target == .window && !p.hasWindow then some (none, p)
  else do
    let called := p.listenersFor target type
    return (some called.length, ← called.foldlM (deliver? client) p)

/-! ## Frames -/

/-- The frame of an animation has come: it is drawn and the next one asked for, or the loop ends. -/
def runFrame (p : Page) (m : Mount) : Page :=
  if m.animator.draws ((p.element? m.canvas).any (·.isConnected)) then
    let calls := m.animator.frameCommands.flatMap (DrawCommand.calls m.animator.size)
    let p := p.modifyElement m.canvas (·.record calls)
    let (handle, p) := p.requestFrame m.key
    p.modifyMount m.key (·.drawn handle)
  else p.modifyMount m.key Animator.skipped

def fire (p : Page) (key : Nat) : Page :=
  match p.mount? key with
  | some m => p.runFrame m
  | none => p

def frame (p : Page) (time : Float) : Nat × Page :=
  let (due, frames) := p.frames.beginTick time
  (due.length, (due.map (·.2)).foldl fire { p with frames })

def framesAt (time : Float) : Nat → Page → Nat × Page
  | 0, p => (0, p)
  | n + 1, p =>
    let (count, p) := p.frame time
    let (more, p) := framesAt time n p
    (count + more, p)

end Page
end AnimatedCanvas
