/-!
The queue of frame requests. A request waits under a handle of its own until the next tick, which
takes all waiting requests at once; what is requested during a tick waits for a later one.
-/

namespace AnimatedCanvas

structure FrameQueue (τ : Type) where
  /-- The handle given last; handles count from one. -/
  last : Nat
  /-- The time of the latest tick, in milliseconds. -/
  now : Float
  pending : List (Nat × τ)

namespace FrameQueue

variable {τ : Type}

def empty : FrameQueue τ := ⟨0, 0.0, []⟩

instance : Inhabited (FrameQueue τ) := ⟨empty⟩

def interval : Float := 1000.0 / 60.0

def size (q : FrameQueue τ) : Nat := q.pending.length

def handles (q : FrameQueue τ) : List Nat := q.pending.map (·.1)

def request (q : FrameQueue τ) (item : τ) : Nat × FrameQueue τ :=
  let handle := q.last + 1
  (handle, { q with last := handle, pending := q.pending ++ [(handle, item)] })

/-- Withdraws a waiting request. Other handles change nothing. -/
def cancel (q : FrameQueue τ) (handle : Nat) : FrameQueue τ :=
  { q with pending := q.pending.filter (·.1 != handle) }

/-- Begins a tick: takes all waiting requests, the oldest first. -/
def beginTick (q : FrameQueue τ) (time : Float) : List (Nat × τ) × FrameQueue τ :=
  (q.pending, { q with now := time, pending := [] })

def nextTime (q : FrameQueue τ) : Float := q.now + interval

end FrameQueue
end AnimatedCanvas
