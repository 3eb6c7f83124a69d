import AnimatedCanvas.FrameQueue.Script
import AnimatedCanvas.Proofs.FrameQueue.Handles
import Mathlib.Data.List.Range
import Mathlib.Logic.Function.Iterate

namespace AnimatedCanvas

namespace FrameEvent

def request? : FrameEvent → Option Nat
  | .requested handle => some handle
  | _ => none

def withdrawal? : FrameEvent → Option Nat
  | .cancelled handle => some handle
  | _ => none

def beginning? : FrameEvent → Option Nat
  | .began tick => some tick
  | _ => none

def firing? : FrameEvent → Option (Nat × Nat)
  | .fired tick handle _ _ _ => some (tick, handle)
  | _ => none

end FrameEvent

def FrameTask.firing? {κ : Type} : FrameTask κ → Option (Nat × Nat)
  | .fire tick handle _ _ => some (tick, handle)
  | _ => none

@[simp]
theorem FrameTask.firing?_act {κ : Type} (call : FrameCall κ) : (FrameTask.act call).firing? = none :=
  rfl

@[simp]
theorem FrameTask.firing?_fire {κ : Type} (tick handle : Nat) (time : Float) (callback : κ) :
    (FrameTask.fire tick handle time callback).firing? = some (tick, handle) :=
  rfl

/-- The first tick that begins after the request of a handle. -/
def firstTickAfter? (handle : Nat) : List FrameEvent → Option Nat
  | [] => none
  | e :: later =>
    if e.request? = some handle then later.findSome? FrameEvent.beginning?
    else firstTickAfter? handle later

def ticksOf (handle : Nat) (deliveries : List (Nat × Nat)) : List Nat :=
  (deliveries.filter (·.2 == handle)).map (·.1)

def handlesIn (tick : Nat) (deliveries : List (Nat × Nat)) : List Nat :=
  (deliveries.filter (·.1 == tick)).map (·.2)

@[simp]
theorem ticksOf_append (handle : Nat) (ds es : List (Nat × Nat)) :
    ticksOf handle (ds ++ es) = ticksOf handle ds ++ ticksOf handle es := by
  simp [ticksOf]

@[simp]
theorem handlesIn_append (tick : Nat) (ds es : List (Nat × Nat)) :
    handlesIn tick (ds ++ es) = handlesIn tick ds ++ handlesIn tick es := by
  simp [handlesIn]

theorem ticksOf_map (handle tick : Nat) (handles : List Nat) :
    ticksOf handle (handles.map (tick, ·)) = List.replicate (handles.count handle) tick := by
  simp [ticksOf, List.filter_map, Function.comp_def, List.filter_beq]

theorem handlesIn_map (tick : Nat) (handles : List Nat) :
    handlesIn tick (handles.map (tick, ·)) = handles := by
  simp [handlesIn, List.filter_map, Function.comp_def]

theorem handlesIn_map_of_ne {tick other : Nat} (h : other ≠ tick) (handles : List Nat) :
    handlesIn tick (handles.map (other, ·)) = [] := by
  simp [handlesIn, h]

theorem handlesIn_eq_nil {tick : Nat} {ds : List (Nat × Nat)} (past : ∀ d ∈ ds, d.1 < tick) :
    handlesIn tick ds = [] := by
  rw [handlesIn, List.map_eq_nil_iff, List.filter_eq_nil_iff]
  intro d member same
  exact (past d member).ne (beq_iff_eq.mp same)

theorem firstTickAfter?_concat (handle : Nat) (events : List FrameEvent) (e : FrameEvent) :
    firstTickAfter? handle (events ++ [e]) = (firstTickAfter? handle events).or
      (if handle ∈ events.filterMap FrameEvent.request? then e.beginning? else none) := by
  induction events with
  | nil => simp [firstTickAfter?]
  | cons first events ih =>
      rw [List.cons_append, firstTickAfter?, firstTickAfter?]
      by_cases same : first.request? = some handle
      · rw [if_pos same, if_pos same, if_pos (by simp [same]), List.findSome?_append]
        simp
      · have other : handle ∈ (first :: events).filterMap FrameEvent.request? ↔
            handle ∈ events.filterMap FrameEvent.request? := by
          simp [same]
        rw [if_neg same, if_neg same, ih]
        simp only [other]

theorem firstTickAfter?_eq_none {handle : Nat} {events : List FrameEvent}
    (h : handle ∉ events.filterMap FrameEvent.request?) : firstTickAfter? handle events = none := by
  induction events with
  | nil => rfl
  | cons first events ih =>
      have other : first.request? ≠ some handle := fun same => h (by simp [same])
      rw [firstTickAfter?, if_neg other]
      exact ih fun later => h (by simpa using .inr (by simpa using later))

namespace FrameHost

section Views

variable {κ : Type} (m : FrameHost κ)

def events : List FrameEvent := m.history.reverse

def requested : List Nat := m.events.filterMap FrameEvent.request?

def withdrawn : List Nat := m.events.filterMap FrameEvent.withdrawal?

def begun : List Nat := m.events.filterMap FrameEvent.beginning?

def fired : List (Nat × Nat) := m.events.filterMap FrameEvent.firing?

def due : List (Nat × Nat) := m.agenda.filterMap FrameTask.firing?

def deliveries : List (Nat × Nat) := m.fired ++ m.due

end Views

variable {κ : Type} {m m' : FrameHost κ}

inductive Change (m m' : FrameHost κ) : Prop where
  | request (callback : κ) (queue : m'.queue = (m.queue.request callback).2)
    (ticks : m'.ticks = m.ticks) (events : m'.events = m.events ++ [.requested (m.queue.last + 1)])
    (deliveries : m'.deliveries = m.deliveries)
  | cancel (handle : Nat) (queue : m'.queue = m.queue.cancel handle) (ticks : m'.ticks = m.ticks)
    (events : m'.events = m.events ++ [.cancelled handle])
    (deliveries : m'.deliveries = m.deliveries)
  | tick (time : Float) (queue : m'.queue = (m.queue.beginTick time).2)
    (ticks : m'.ticks = m.ticks + 1) (events : m'.events = m.events ++ [.began (m.ticks + 1)])
    (deliveries : m'.deliveries = m.fired ++ (m.queue.handles.map (m.ticks + 1, ·) ++ m.due))
  | fire (tick handle : Nat) (name : String) (time : Float) (queue : m'.queue = m.queue)
    (ticks : m'.ticks = m.ticks)
    (events : m'.events = m.events ++ [.fired tick handle name time m.queue.size])
    (deliveries : m'.deliveries = m.deliveries)
  | still (queue : m'.queue = m.queue) (ticks : m'.ticks = m.ticks) (events : m'.events = m.events)
    (deliveries : m'.deliveries = m.deliveries)

theorem due_of_act {call : FrameCall κ} {rest : List (FrameTask κ)}
    (next : m.agenda = .act call :: rest) : m.due = rest.filterMap FrameTask.firing? := by
  simp [due, next, List.filterMap_cons]

theorem deliveries_beginTick (m : FrameHost κ) (time : Float) : (m.beginTick time).deliveries =
    m.fired ++ (m.queue.handles.map (m.ticks + 1, ·) ++ m.due) := by
  simp [deliveries, fired, events, due, beginTick, FrameEvent.firing?, FrameQueue.beginTick,
    FrameQueue.handles, List.filterMap_map, Function.comp_def]

theorem change_act {call : FrameCall κ} {rest : List (FrameTask κ)}
    (next : m.agenda = .act call :: rest) : Change m (({ m with agenda := rest }).act call) := by
  have due := due_of_act next
  cases call with
  | request callback =>
      refine .request callback rfl rfl (by simp [events, act, FrameQueue.request]) ?_
      rw [deliveries, deliveries, due]
      simp [fired, events, act, FrameEvent.firing?, FrameHost.due, FrameQueue.request]
  | cancel handle =>
      refine .cancel handle rfl rfl (by simp [events, act]) ?_
      rw [deliveries, deliveries, due]
      simp [fired, events, act, FrameEvent.firing?, FrameHost.due]
  | tick time =>
      refine .tick time rfl rfl (by simp [events, act, beginTick]) ?_
      rw [act, deliveries_beginTick, due]
      rfl
  | run frames =>
      cases frames with
      | zero => exact .still rfl rfl rfl (by rw [deliveries, deliveries, due]; rfl)
      | succ frames =>
          refine .still rfl rfl rfl ?_
          rw [deliveries, deliveries, due]
          simp [fired, events, act, FrameHost.due, List.filterMap_cons]

variable [FrameCallback κ]

theorem change_step (m : FrameHost κ) : Change m m.step := by
  unfold step
  split
  next => exact .still rfl rfl rfl rfl
  next call rest next => exact change_act next
  next tick handle time callback rest next =>
    refine .fire tick handle _ time rfl rfl (by simp [events, fire]; rfl) ?_
    have due : m.due = (tick, handle) :: rest.filterMap FrameTask.firing? := by
      simp [FrameHost.due, next]
    rw [deliveries, deliveries, due]
    simp [fired, events, fire, FrameEvent.firing?, FrameHost.due]

/-- Whether one state comes after another: there are steps in between, and calls from outside where
there is nothing left to do. -/
inductive Leads (m : FrameHost κ) : FrameHost κ → Prop where
  | refl : Leads m m
  | step {later : FrameHost κ} (before : Leads m later) : Leads m later.step
  | call {later : FrameHost κ} (before : Leads m later) (idle : later.agenda = [])
    (call : FrameCall κ) : Leads m { later with agenda := [.act call] }

theorem Leads.keeps {P : FrameHost κ → Prop} (kept : ∀ {m m'}, Change m m' → P m → P m')
    (h : m.Leads m') (now : P m) : P m' := by
  induction h with
  | refl => exact now
  | step before ih => exact kept (change_step _) ih
  | @call later before idle call ih =>
      have still : Change later { later with agenda := [.act call] } :=
        .still rfl rfl rfl (by simp [deliveries, fired, events, due, idle])
      exact kept still ih

theorem Leads.iterate (h : m.Leads m') (n : Nat) : m.Leads (FrameHost.step^[n] m') := by
  induction n generalizing m' with
  | zero => exact h
  | succ n ih => exact ih h.step

theorem Leads.steps (h : m.Leads m') (n : Nat) : m.Leads (m'.steps n) := by
  induction n generalizing m' with
  | zero => exact h
  | succ n ih =>
      rw [FrameHost.steps]
      split
      · exact h
      · exact ih h.step

theorem Leads.perform {m m' : FrameMachine} (h : m.Leads m') (idle : m'.agenda = [])
    (action : FrameAction) : m.Leads (m'.perform action) := by
  rw [FrameHost.perform, idle]
  exact (h.call idle action.call).steps _

end FrameHost
end AnimatedCanvas
