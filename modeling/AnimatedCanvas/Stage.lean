import AnimatedCanvas.Animator
import AnimatedCanvas.FrameQueue
import AnimatedCanvas.Surface.Error
import AnimatedCanvas.Surface.Recorder

/-!
Animators on recording surfaces, all on one queue of frames.

An animator is known by its name, and the queue by a key of its own, which is never given again. An
animator that is replaced or dropped is destroyed first, so that the queue holds requests of living
animators only.
-/

namespace AnimatedCanvas

structure Performer (α : Type) where
  name : String
  key : Nat
  animator : Animator α

structure Stage (α : Type) where
  /-- Surfaces by their ids; an element that is no surface has no recorder. -/
  surfaces : List (String × Option Recorder)
  performers : List (Performer α)
  queue : FrameQueue Nat
  lastKey : Nat

namespace Stage

variable {α : Type}

def empty : Stage α := { surfaces := [], performers := [], queue := .empty, lastKey := 0 }

/-! ## Surfaces -/

/-- Adds a surface, in place of one with its id. Without a size, it offers nothing to draw on. -/
def addSurface (s : Stage α) (id : String) (size : Option Size) : Stage α :=
  { s with surfaces := (id, size.map Recorder.create) :: s.surfaces.filter (·.1 != id) }

def recorder? (s : Stage α) (id : String) : Option Recorder :=
  (s.surfaces.lookup id).join

def openSurface (s : Stage α) (id : String) : Except CanvasError Recorder :=
  match s.surfaces.lookup id with
  | some (some recorder) => .ok recorder
  | some none => .error (.noDrawingContext id)
  | none => .error (.surfaceNotFound id)

def modifyRecorder (s : Stage α) (id : String) (f : Recorder → Recorder) : Stage α :=
  { s with surfaces := s.surfaces.map fun (i, r) => if i == id then (i, r.map f) else (i, r) }

def isAttached (s : Stage α) (id : String) : Bool := (s.recorder? id).any (·.isAttached)

/-! ## Animators -/

def performer? (s : Stage α) (name : String) : Option (Performer α) :=
  s.performers.find? (·.name == name)

def performerOf? (s : Stage α) (key : Nat) : Option (Performer α) :=
  s.performers.find? (·.key == key)

def modify (s : Stage α) (key : Nat) (f : Animator α → Animator α) : Stage α :=
  { s with
    performers := s.performers.map fun p =>
      if p.key == key then { p with animator := f p.animator } else p }

def request (s : Stage α) (key : Nat) : Nat × Stage α :=
  let (handle, queue) := s.queue.request key
  (handle, { s with queue })

variable [Scene α]

/-- Begins the loop of an animator; nothing if it is running or destroyed. -/
def startPerformer (s : Stage α) (p : Performer α) : Stage α :=
  if p.animator.canStart then
    let (handle, s) := s.request p.key
    s.modify p.key (·.start handle)
  else s

/-- Stops an animator for good and withdraws the frame that it waits for. -/
def destroyPerformer (s : Stage α) (p : Performer α) : Stage α :=
  let s := match p.animator.pending with
    | some handle => { s with queue := s.queue.cancel handle }
    | none => s
  s.modify p.key Animator.destroy

def dropPerformer (s : Stage α) (p : Performer α) : Stage α :=
  let s := s.destroyPerformer p
  { s with performers := s.performers.filter (·.key != p.key) }

/-- Adds an animator; the one that had its name goes when it is there. -/
def add (s : Stage α) (name : String) (animator : Animator α) (isStarted : Bool) : Stage α :=
  let old := s.performer? name
  let p : Performer α := { name, key := s.lastKey + 1, animator }
  let s := { s with performers := s.performers ++ [p], lastKey := p.key }
  let s := if isStarted then s.startPerformer p else s
  match old with
  | some old => s.dropPerformer old
  | none => s

def mount (s : Stage α) (name id : String) (build : Size → Except ConfigError α) :
    Except CanvasError (Stage α) := do
  let recorder ← s.openSurface id
  let scene ← (build recorder.layout).mapError .config
  return s.add name (.create id scene recorder.layout) true

/-- Puts a scene on a surface for the size that the surface was made with, without starting it. -/
def mountStopped (s : Stage α) (name id : String) (build : Size → Except ConfigError α) :
    Except CanvasError (Stage α) := do
  let recorder ← s.openSurface id
  let scene ← (build recorder.size).mapError .config
  return s.add name (.create id scene recorder.size) false

inductive Request where
  | start
  | destroy
  | pointerMove (position : Point)
  | pointerLeave
  | click (position : Point)
  /-- Measures the surface and fits the scene to it. -/
  | resize

def perform (s : Stage α) (p : Performer α) : Request → Stage α
  | .start => s.startPerformer p
  | .destroy => s.destroyPerformer p
  | .pointerMove position => s.modify p.key (·.pointerMove position)
  | .pointerLeave => s.modify p.key Animator.pointerLeave
  | .click position => s.modify p.key (·.click position)
  | .resize =>
    match s.recorder? p.animator.surface with
    | some recorder => s.modify p.key (·.resize recorder.layout)
    | none => s

/-! ## Memory -/

def reserve? [Scene.Reserving α] (p : Performer α) : Request → Option Unit
  | .click _ => p.animator.reserveClick?
  | .resize => p.animator.reserveResize?
  | _ => some ()

def perform? [Scene.Reserving α] (s : Stage α) (p : Performer α) (request : Request) :
    Option (Stage α) := do
  reserve? p request
  return s.perform p request

/-- As `mount`, for a scene that may find no memory. -/
def mount? (s : Stage α) (name id : String) (build? : Size → Option (Except ConfigError α)) :
    Option (Except CanvasError (Stage α)) := do
  match s.openSurface id with
  | .error e => return .error e
  | .ok recorder =>
    let built ← build? recorder.layout
    return s.mount name id fun _ => built

/-- As `mountStopped`, for a scene that may find no memory. -/
def mountStopped? (s : Stage α) (name id : String)
    (build? : Size → Option (Except ConfigError α)) : Option (Except CanvasError (Stage α)) := do
  match s.openSurface id with
  | .error e => return .error e
  | .ok recorder =>
    let built ← build? recorder.size
    return s.mountStopped name id fun _ => built

/-! ## Frames -/

/-- The frame of an animator has come: it is drawn and the next one asked for, or the loop ends. -/
def runFrame (s : Stage α) (p : Performer α) : Stage α :=
  if p.animator.draws (s.isAttached p.animator.surface) then
    let s := s.modifyRecorder p.animator.surface (·.draw p.animator.frameCommands)
    let (handle, s) := s.request p.key
    s.modify p.key (·.drawn handle)
  else s.modify p.key Animator.skipped

/-- Fires a request that a tick has taken; nothing if its animator is gone. -/
def fire (s : Stage α) (key : Nat) : Stage α :=
  match s.performerOf? key with
  | some p => s.runFrame p
  | none => s

def beginTick (s : Stage α) (time : Float) : List Nat × Stage α :=
  let (due, queue) := s.queue.beginTick time
  (due.map (·.2), { s with queue })

def tick (s : Stage α) (time : Float) : Nat × Stage α :=
  let (due, s) := s.beginTick time
  (due.length, due.foldl fire s)

def run : Nat → Stage α → Stage α
  | 0, s => s
  | n + 1, s => run n (s.tick s.queue.nextTime).2

end Stage
end AnimatedCanvas
