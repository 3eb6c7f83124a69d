import AnimatedCanvas.FrameQueue

/-!
A queue of frame requests at work. What is asked of it comes from outside and from the requested
callbacks when they are fired, so that there can be ticks within ticks.

A `FrameHost` works on an agenda of tasks, the next one first. A tick puts the taken requests in front
of the agenda, and a fired request puts there what its callback asks for.
-/

namespace AnimatedCanvas

inductive FrameCall (κ : Type) where
  | request (callback : κ)
  | cancel (handle : Nat)
  | tick (time : Float)
  | run (frames : Nat)

inductive FrameEvent where
  | requested (handle : Nat)
  | cancelled (handle : Nat)
  /-- A tick has taken the waiting requests; ticks are numbered from one. -/
  | began (tick : Nat)
  /-- A request was fired by a tick, while so many others waited. -/
  | fired (tick handle : Nat) (name : String) (time : Float) (waiting : Nat)

class FrameCallback (κ : Type) where
  name : κ → String
  /-- What a callback asks for when it is fired at a time, in view of the queue and of all that has
  happened, the latest first. -/
  calls : κ → Float → FrameQueue κ → List FrameEvent → List (FrameCall κ)

inductive FrameTask (κ : Type) where
  | act (call : FrameCall κ)
  | fire (tick handle : Nat) (time : Float) (callback : κ)

/-- A queue, what is left to do on it, and what has happened, the latest first. -/
structure FrameHost (κ : Type) where
  queue : FrameQueue κ
  agenda : List (FrameTask κ)
  ticks : Nat
  history : List FrameEvent

namespace FrameHost

variable {κ : Type}

def start : FrameHost κ := { queue := .empty, agenda := [], ticks := 0, history := [] }

def beginTick (m : FrameHost κ) (time : Float) : FrameHost κ :=
  let (due, queue) := m.queue.beginTick time
  let tick := m.ticks + 1
  { queue, ticks := tick, history := .began tick :: m.history
    agenda := due.map (fun (handle, callback) => .fire tick handle time callback) ++ m.agenda }

/-- Does what is asked for; what it entails goes in front of the agenda. -/
def act (m : FrameHost κ) : FrameCall κ → FrameHost κ
  | .request callback =>
    let (handle, queue) := m.queue.request callback
    { m with queue, history := .requested handle :: m.history }
  | .cancel handle =>
    { m with queue := m.queue.cancel handle, history := .cancelled handle :: m.history }
  | .tick time => m.beginTick time
  | .run 0 => m
  | .run (frames + 1) =>
    { m with agenda := .act (.tick m.queue.nextTime) :: .act (.run frames) :: m.agenda }

def reply? (m : FrameHost κ) : FrameCall κ → Option Nat
  | .request callback => some (m.queue.request callback).1
  | .cancel _ => none
  | .tick _ => some m.queue.size
  | .run _ => none

variable [FrameCallback κ]

def fire (m : FrameHost κ) (tick handle : Nat) (time : Float) (callback : κ) : FrameHost κ :=
  { m with
    history := .fired tick handle (FrameCallback.name callback) time m.queue.size :: m.history
    agenda :=
      (FrameCallback.calls callback time m.queue m.history).map FrameTask.act ++ m.agenda }

def step (m : FrameHost κ) : FrameHost κ :=
  match m.agenda with
  | [] => m
  | .act call :: agenda => ({ m with agenda } : FrameHost κ).act call
  | .fire tick handle time callback :: agenda =>
    ({ m with agenda } : FrameHost κ).fire tick handle time callback

def steps : Nat → FrameHost κ → FrameHost κ
  | 0, m => m
  | n + 1, m => if m.agenda.isEmpty then m else steps n m.step

end FrameHost
end AnimatedCanvas
