import AnimatedCanvas.FrameQueue.Host

/-!
Scripted frame requests: a request names the actions that it performs when it fires, so that whole
histories of a queue can be played through.

Every step makes `FrameHost.weight` smaller, so that many steps finish the agenda.
-/

namespace AnimatedCanvas

inductive FrameAction where
  | request (name : String) (actions : List FrameAction)
  | cancel (handle : Nat)
  | tick (time : Float)
  | run (frames : Nat)
deriving Inhabited

structure FrameScript where
  name : String
  actions : List FrameAction

namespace FrameAction

def call : FrameAction → FrameCall FrameScript
  | .request name actions => .request ⟨name, actions⟩
  | .cancel handle => .cancel handle
  | .tick time => .tick time
  | .run frames => .run frames

mutual

def weight : FrameAction → Nat
  | .request _ actions => weights actions + 2
  | .cancel _ => 1
  | .tick _ => 1
  | .run frames => 2 * frames + 1

def weights : List FrameAction → Nat
  | [] => 0
  | a :: rest => weight a + weights rest

end

end FrameAction

/-- A script performs its actions, whatever has happened. -/
instance : FrameCallback FrameScript where
  name := FrameScript.name
  calls script _ _ _ := script.actions.map FrameAction.call

def FrameScript.weight (s : FrameScript) : Nat := FrameAction.weights s.actions + 1

def FrameCall.weight : FrameCall FrameScript → Nat
  | .request script => script.weight + 1
  | .cancel _ => 1
  | .tick _ => 1
  | .run frames => 2 * frames + 1

def FrameTask.weight : FrameTask FrameScript → Nat
  | .act call => call.weight
  | .fire _ _ _ script => script.weight

abbrev FrameMachine := FrameHost FrameScript

namespace FrameHost

/-- How many steps are left at most. -/
def weight (m : FrameMachine) : Nat :=
  m.agenda.foldr (·.weight + ·) 0 + m.queue.pending.foldr (·.2.weight + ·) 0

def finish (m : FrameMachine) : FrameMachine := steps m.weight m

def perform (m : FrameMachine) (action : FrameAction) : FrameMachine :=
  ({ m with agenda := .act action.call :: m.agenda } : FrameMachine).finish

def answer? (m : FrameMachine) (action : FrameAction) : Option Nat := m.reply? action.call

end FrameHost
end AnimatedCanvas
