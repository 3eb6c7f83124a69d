import AnimatedCanvas.Proofs.FrameQueue.History

/-!
# Frames are delivered in order

A request that is not withdrawn is fired once, in the first tick that begins after it. A tick fires what
waited when it began, in the order of the requests, and it ends, though every callback may ask for another
frame (`frames_delivered`).
-/

namespace AnimatedCanvas

variable {κ : Type}

def FrameCall.isTick : FrameCall κ → Bool
  | .request _ => false
  | .cancel _ => false
  | .tick _ => true
  | .run _ => true

/-- Callbacks that ask for frames, and leave the ticks to others. -/
def FrameCallback.AskOnly (κ : Type) [FrameCallback κ] : Prop :=
  ∀ (callback : κ) (time : Float) (queue : FrameQueue κ) (events : List FrameEvent),
    ∀ call ∈ FrameCallback.calls callback time queue events, call.isTick = false

namespace FrameHost

variable {m m' : FrameHost κ}

structure Delivering (m : FrameHost κ) : Prop where
  requested : m.requested = List.range' 1 m.queue.last
  begun : m.begun = List.range' 1 m.ticks
  waiting : m.queue.handles.Sublist m.requested
  untaken : ∀ handle ∈ m.queue.handles, firstTickAfter? handle m.events = none
  lasting : ∀ handle ∈ m.requested, handle ∉ m.withdrawn →
    firstTickAfter? handle m.events = none → handle ∈ m.queue.handles
  prompt : ∀ handle,
    (ticksOf handle m.deliveries).Sublist (firstTickAfter? handle m.events).toList
  complete : ∀ handle, handle ∉ m.withdrawn →
    ticksOf handle m.deliveries = (firstTickAfter? handle m.events).toList
  ordered : ∀ tick, (handlesIn tick m.deliveries).Sublist m.requested
  past : ∀ d ∈ m.deliveries, d.1 ≤ m.ticks

theorem delivering_start : (start : FrameHost κ).Delivering where
  requested := rfl
  begun := rfl
  waiting := List.nil_sublist _
  untaken := by intro handle member; cases member
  lasting := by intro handle member; cases member
  prompt _ := List.nil_sublist _
  complete _ _ := rfl
  ordered _ := List.nil_sublist _
  past := by intro d member; cases member

theorem Delivering.nodup (h : m.Delivering) : m.requested.Nodup := by
  rw [h.requested]
  exact List.nodup_range'

theorem Delivering.le_last (h : m.Delivering) {handle : Nat} (member : handle ∈ m.requested) :
    handle ≤ m.queue.last := by
  rw [h.requested, List.mem_range'_1] at member
  omega

theorem Delivering.undelivered (h : m.Delivering) {handle : Nat}
    (waiting : handle ∈ m.queue.handles) : ticksOf handle m.deliveries = [] := by
  have prompt := h.prompt handle
  rw [h.untaken handle waiting] at prompt
  exact List.sublist_nil.mp prompt

theorem Delivering.handlesIn_due (h : m.Delivering) : handlesIn (m.ticks + 1) m.due = [] :=
  handlesIn_eq_nil fun d member => Nat.lt_succ_of_le (h.past d (List.mem_append_right _ member))

theorem Delivering.handlesIn_fired (h : m.Delivering) : handlesIn (m.ticks + 1) m.fired = [] :=
  handlesIn_eq_nil fun d member => Nat.lt_succ_of_le (h.past d (List.mem_append_left _ member))

/-! ## How views change -/

section Appended

variable {e : FrameEvent} (events : m'.events = m.events ++ [e])
include events

theorem requested_append : m'.requested = m.requested ++ e.request?.toList := by
  rw [requested, events, List.filterMap_append]
  cases same : e.request? <;> simp [requested, same]

theorem withdrawn_append : m'.withdrawn = m.withdrawn ++ e.withdrawal?.toList := by
  rw [withdrawn, events, List.filterMap_append]
  cases same : e.withdrawal? <;> simp [withdrawn, same]

theorem begun_append : m'.begun = m.begun ++ e.beginning?.toList := by
  rw [begun, events, List.filterMap_append]
  cases same : e.beginning? <;> simp [begun, same]

theorem firstTickAfter?_append (handle : Nat) : firstTickAfter? handle m'.events =
    (firstTickAfter? handle m.events).or (if handle ∈ m.requested then e.beginning? else none) := by
  rw [events, firstTickAfter?_concat]
  rfl

theorem quiet_append (quiet : e.beginning? = none) : m'.begun = m.begun ∧
    ∀ handle, firstTickAfter? handle m'.events = firstTickAfter? handle m.events := by
  refine ⟨by simpa [quiet] using begun_append events, fun handle => ?_⟩
  simpa [quiet] using firstTickAfter?_append events handle

end Appended

theorem Delivering.of_same (h : m.Delivering) (queue : m'.queue = m.queue)
    (ticks : m'.ticks = m.ticks) (deliveries : m'.deliveries = m.deliveries)
    (requested : m'.requested = m.requested) (withdrawn : m'.withdrawn = m.withdrawn)
    (begun : m'.begun = m.begun)
    (first : ∀ handle, firstTickAfter? handle m'.events = firstTickAfter? handle m.events) :
    m'.Delivering := by
  constructor <;> simp only [queue, ticks, deliveries, requested, withdrawn, begun, first]
  · exact h.requested
  · exact h.begun
  · exact h.waiting
  · exact h.untaken
  · exact h.lasting
  · exact h.prompt
  · exact h.complete
  · exact h.ordered
  · exact h.past

theorem Delivering.request (h : m.Delivering) (callback : κ)
    (queue : m'.queue = (m.queue.request callback).2) (ticks : m'.ticks = m.ticks)
    (events : m'.events = m.events ++ [.requested (m.queue.last + 1)])
    (deliveries : m'.deliveries = m.deliveries) : m'.Delivering := by
  have last : m'.queue.last = m.queue.last + 1 := by rw [queue]; rfl
  have handles : m'.queue.handles = m.queue.handles ++ [m.queue.last + 1] := by
    rw [queue, FrameQueue.handles_request]
  have requested : m'.requested = m.requested ++ [m.queue.last + 1] := requested_append events
  have withdrawn : m'.withdrawn = m.withdrawn := by
    simpa [FrameEvent.withdrawal?] using withdrawn_append events
  obtain ⟨begun, first⟩ := quiet_append events rfl
  have fresh : m.queue.last + 1 ∉ m.requested := fun member => by
    have := h.le_last member
    omega
  constructor
  · rw [requested, h.requested, last, List.range'_1_concat, Nat.add_comm 1]
  · rw [begun, ticks, h.begun]
  · rw [handles, requested]
    exact h.waiting.append (List.Sublist.refl _)
  · simp only [handles, first, List.forall_mem_append, List.forall_mem_singleton]
    exact ⟨h.untaken, firstTickAfter?_eq_none fresh⟩
  · intro handle member kept untaken
    rw [withdrawn] at kept
    rw [first] at untaken
    rw [requested] at member
    rw [handles]
    rcases List.mem_append.mp member with old | new
    · exact List.mem_append_left _ (h.lasting handle old kept untaken)
    · exact List.mem_append_right _ new
  · simp only [deliveries, first]
    exact h.prompt
  · simp only [deliveries, first, withdrawn]
    exact h.complete
  · intro tick
    rw [deliveries, requested]
    exact (h.ordered tick).trans (List.sublist_append_left _ _)
  · simpa only [deliveries, ticks] using h.past

theorem Delivering.cancel (h : m.Delivering) (handle : Nat) (queue : m'.queue = m.queue.cancel handle)
    (ticks : m'.ticks = m.ticks) (events : m'.events = m.events ++ [.cancelled handle])
    (deliveries : m'.deliveries = m.deliveries) : m'.Delivering := by
  have last : m'.queue.last = m.queue.last := by rw [queue]; rfl
  have handles : m'.queue.handles = m.queue.handles.filter (· != handle) := by
    rw [queue, FrameQueue.handles_cancel]
  have requested : m'.requested = m.requested := by
    simpa [FrameEvent.request?] using requested_append events
  have withdrawn : m'.withdrawn = m.withdrawn ++ [handle] := withdrawn_append events
  obtain ⟨begun, first⟩ := quiet_append events rfl
  constructor
  · rw [requested, last, h.requested]
  · rw [begun, ticks, h.begun]
  · rw [handles, requested]
    exact List.filter_sublist.trans h.waiting
  · intro other member
    rw [handles] at member
    rw [first]
    exact h.untaken other (List.mem_of_mem_filter member)
  · intro other member kept untaken
    rw [withdrawn, List.mem_append, not_or, List.mem_singleton] at kept
    rw [first] at untaken
    rw [requested] at member
    rw [handles]
    exact List.mem_filter.mpr ⟨h.lasting other member kept.1 untaken, by simpa using kept.2⟩
  · simp only [deliveries, first]
    exact h.prompt
  · intro other kept
    rw [withdrawn, List.mem_append, not_or] at kept
    rw [deliveries, first]
    exact h.complete other kept.1
  · simpa only [deliveries, requested] using h.ordered
  · simpa only [deliveries, ticks] using h.past

section Begun

variable (events : m'.events = m.events ++ [.began (m.ticks + 1)])
  (deliveries : m'.deliveries = m.fired ++ (m.queue.handles.map (m.ticks + 1, ·) ++ m.due))

include events in
theorem firstTickAfter?_begun (handle : Nat) : firstTickAfter? handle m'.events =
    (firstTickAfter? handle m.events).or
      (if handle ∈ m.requested then some (m.ticks + 1) else none) :=
  firstTickAfter?_append events handle

include deliveries

theorem ticksOf_begun {handle : Nat} (absent : handle ∉ m.queue.handles) :
    ticksOf handle m'.deliveries = ticksOf handle m.deliveries := by
  rw [deliveries, FrameHost.deliveries, ticksOf_append, ticksOf_append, ticksOf_append, ticksOf_map,
    List.count_eq_zero_of_not_mem absent]
  rfl

theorem Delivering.ordered_begun (h : m.Delivering) (tick : Nat) :
    (handlesIn tick m'.deliveries).Sublist m.requested := by
  have before := h.ordered tick
  rw [FrameHost.deliveries, handlesIn_append] at before
  rw [deliveries, handlesIn_append, handlesIn_append]
  by_cases now : m.ticks + 1 = tick
  · subst now
    rw [h.handlesIn_fired, h.handlesIn_due, handlesIn_map]
    simpa using h.waiting
  · rw [handlesIn_map_of_ne now]
    exact before

theorem Delivering.past_begun (h : m.Delivering) : ∀ d ∈ m'.deliveries, d.1 ≤ m.ticks + 1 := by
  intro d member
  rw [deliveries] at member
  simp only [List.mem_append, List.mem_map] at member
  rcases member with old | ⟨handle, -, rfl⟩ | old
  · exact Nat.le_succ_of_le (h.past d (List.mem_append_left _ old))
  · exact Nat.le_refl _
  · exact Nat.le_succ_of_le (h.past d (List.mem_append_right _ old))

include events

theorem Delivering.taken (h : m.Delivering) {handle : Nat} (waits : handle ∈ m.queue.handles) :
    ticksOf handle m'.deliveries = [m.ticks + 1] ∧
      firstTickAfter? handle m'.events = some (m.ticks + 1) := by
  have none := h.undelivered waits
  rw [FrameHost.deliveries, ticksOf_append, List.append_eq_nil_iff] at none
  constructor
  · rw [deliveries, ticksOf_append, ticksOf_append, none.1, none.2, ticksOf_map,
      List.count_eq_one_of_mem (h.nodup.sublist h.waiting) waits]
    rfl
  · rw [firstTickAfter?_begun events, h.untaken handle waits, if_pos (h.waiting.subset waits)]
    rfl

theorem Delivering.prompt_begun (h : m.Delivering) (handle : Nat) :
    (ticksOf handle m'.deliveries).Sublist (firstTickAfter? handle m'.events).toList := by
  by_cases waits : handle ∈ m.queue.handles
  · obtain ⟨delivered, first⟩ := h.taken events deliveries waits
    rw [delivered, first]
    exact List.Sublist.refl _
  · rw [ticksOf_begun deliveries waits, firstTickAfter?_begun events]
    have before := h.prompt handle
    cases same : firstTickAfter? handle m.events with
    | some tick => simpa [same] using before
    | none =>
        rw [same] at before
        rw [List.sublist_nil.mp before]
        exact List.nil_sublist _

theorem Delivering.complete_begun (h : m.Delivering) {handle : Nat} (kept : handle ∉ m.withdrawn) :
    ticksOf handle m'.deliveries = (firstTickAfter? handle m'.events).toList := by
  by_cases waits : handle ∈ m.queue.handles
  · obtain ⟨delivered, first⟩ := h.taken events deliveries waits
    rw [delivered, first]
    rfl
  · rw [ticksOf_begun deliveries waits, firstTickAfter?_begun events, h.complete handle kept]
    cases same : firstTickAfter? handle m.events with
    | some tick => rfl
    | none =>
        -- What does not wait, though no tick has taken it, has never been requested.
        have unknown : handle ∉ m.requested := fun member =>
          waits (h.lasting handle member kept same)
        rw [if_neg unknown]
        rfl

end Begun

theorem Delivering.tick (h : m.Delivering) (time : Float)
    (queue : m'.queue = (m.queue.beginTick time).2) (ticks : m'.ticks = m.ticks + 1)
    (events : m'.events = m.events ++ [.began (m.ticks + 1)])
    (deliveries : m'.deliveries = m.fired ++ (m.queue.handles.map (m.ticks + 1, ·) ++ m.due)) :
    m'.Delivering := by
  have last : m'.queue.last = m.queue.last := by rw [queue]; rfl
  have handles : m'.queue.handles = [] := by rw [queue]; rfl
  have requested : m'.requested = m.requested := by
    simpa [FrameEvent.request?] using requested_append events
  have withdrawn : m'.withdrawn = m.withdrawn := by
    simpa [FrameEvent.withdrawal?] using withdrawn_append events
  have begun : m'.begun = m.begun ++ [m.ticks + 1] := begun_append events
  constructor
  · rw [requested, last, h.requested]
  · rw [begun, ticks, h.begun, List.range'_1_concat, Nat.add_comm 1]
  · rw [handles]
    exact List.nil_sublist _
  · simp [handles]
  · -- Whatever has been requested has met a tick by now.
    intro handle member _ untaken
    rw [firstTickAfter?_begun events, if_pos (requested ▸ member)] at untaken
    simp at untaken
  · exact h.prompt_begun events deliveries
  · intro handle kept
    exact h.complete_begun events deliveries (withdrawn ▸ kept)
  · rw [requested]
    exact h.ordered_begun deliveries
  · rw [ticks]
    exact h.past_begun deliveries

theorem Delivering.change (c : Change m m') (h : m.Delivering) : m'.Delivering := by
  cases c with
  | request callback queue ticks events deliveries =>
      exact h.request callback queue ticks events deliveries
  | cancel handle queue ticks events deliveries => exact h.cancel handle queue ticks events deliveries
  | tick time queue ticks events deliveries => exact h.tick time queue ticks events deliveries
  | fire tick handle name time queue ticks events deliveries =>
      obtain ⟨begun, first⟩ := quiet_append events rfl
      refine h.of_same queue ticks deliveries ?_ ?_ begun first
      · simpa [FrameEvent.request?] using requested_append events
      · simpa [FrameEvent.withdrawal?] using withdrawn_append events
  | still queue ticks events deliveries =>
      refine h.of_same queue ticks deliveries ?_ ?_ ?_ fun handle => ?_
      all_goals simp only [FrameHost.requested, FrameHost.withdrawn, FrameHost.begun, events]

/-! ## Ticks -/

structure Took (tick : Nat) (handles : List Nat) (m : FrameHost κ) : Prop where
  begun : tick ≤ m.ticks
  taken : handlesIn tick m.deliveries = handles

theorem Took.change {tick : Nat} {handles : List Nat} (c : Change m m') (h : Took tick handles m) :
    Took tick handles m' := by
  cases c with
  | tick time queue ticks events deliveries =>
      have other : m.ticks + 1 ≠ tick := (Nat.lt_succ_of_le h.begun).ne'
      refine ⟨ticks ▸ Nat.le_succ_of_le h.begun, ?_⟩
      rw [deliveries, handlesIn_append, handlesIn_append, handlesIn_map_of_ne other, List.nil_append,
        ← handlesIn_append]
      exact h.taken
  | request callback queue ticks events deliveries => exact ⟨ticks ▸ h.begun, deliveries ▸ h.taken⟩
  | cancel handle queue ticks events deliveries => exact ⟨ticks ▸ h.begun, deliveries ▸ h.taken⟩
  | fire tick handle name time queue ticks events deliveries =>
      exact ⟨ticks ▸ h.begun, deliveries ▸ h.taken⟩
  | still queue ticks events deliveries => exact ⟨ticks ▸ h.begun, deliveries ▸ h.taken⟩

variable [FrameCallback κ]

theorem step_act {call : FrameCall κ} {rest : List (FrameTask κ)} (next : m.agenda = .act call :: rest) :
    m.step = ({ m with agenda := rest } : FrameHost κ).act call := by
  simp [step, next]

theorem Delivering.took_step (h : m.Delivering) {time : Float} {rest : List (FrameTask κ)}
    (next : m.agenda = .act (.tick time) :: rest) : Took (m.ticks + 1) m.queue.handles m.step := by
  have due : ({ m with agenda := rest } : FrameHost κ).due = m.due := (due_of_act next).symm
  have fired : ({ m with agenda := rest } : FrameHost κ).fired = m.fired := rfl
  rw [step_act next]
  refine ⟨Nat.le_refl _, ?_⟩
  rw [act, deliveries_beginTick, due, fired, handlesIn_append, handlesIn_append, h.handlesIn_fired,
    h.handlesIn_due, handlesIn_map]
  simp

/-! ## Ticks end -/

theorem exists_iterate_calls {calls : List (FrameCall κ)} {rest : List (FrameTask κ)}
    (next : m.agenda = calls.map .act ++ rest) (noTick : ∀ call ∈ calls, call.isTick = false) :
    ∃ k, (step^[k] m).agenda = rest := by
  induction calls generalizing m with
  | nil => exact ⟨0, next⟩
  | cons call calls ih =>
      obtain ⟨first, others⟩ := List.forall_mem_cons.mp noTick
      have done : m.step.agenda = calls.map .act ++ rest := by
        rw [step_act next]
        cases call with
        | request callback => rfl
        | cancel handle => rfl
        | tick time => cases first
        | run frames => cases first
      obtain ⟨k, ends⟩ := ih done others
      exact ⟨k + 1, ends⟩

theorem exists_iterate_fires (askOnly : FrameCallback.AskOnly κ) {tick : Nat} {time : Float}
    {requests : List (Nat × κ)} {rest : List (FrameTask κ)}
    (next : m.agenda = requests.map (fun r => .fire tick r.1 time r.2) ++ rest) :
    ∃ k, (step^[k] m).agenda = rest := by
  induction requests generalizing m with
  | nil => exact ⟨0, next⟩
  | cons request requests ih =>
      have fired : m.step.agenda =
          (FrameCallback.calls request.2 time m.queue m.history).map .act ++
            (requests.map (fun r => .fire tick r.1 time r.2) ++ rest) := by
        simp [step, next, fire]
      obtain ⟨k, called⟩ := exists_iterate_calls fired (askOnly request.2 time m.queue m.history)
      obtain ⟨l, ends⟩ := ih called
      refine ⟨l + k + 1, ?_⟩
      rw [Function.iterate_succ_apply, Function.iterate_add_apply, ends]

theorem exists_iterate_tick (askOnly : FrameCallback.AskOnly κ) {time : Float}
    {rest : List (FrameTask κ)} (next : m.agenda = .act (.tick time) :: rest) :
    ∃ k, (step^[k + 1] m).agenda = rest :=
  exists_iterate_fires (m := m.step) askOnly (by rw [step_act next]; rfl)

/-! ## Delivery -/

theorem Leads.delivering (reached : start.Leads m) : m.Delivering :=
  reached.keeps (fun c h => Delivering.change c h) delivering_start

/-- Ticks are numbered as they begin. A request that is not withdrawn is fired once, in the first tick
that begins after it, and those of one tick are fired in the order of the requests. A tick fires what
waited when it began, so many as it answers, and it ends. -/
theorem frames_delivered (reached : start.Leads m) :
    m.begun = List.range' 1 m.ticks ∧
    (∀ handle, handle ∉ m.withdrawn →
      ticksOf handle m.fired ++ ticksOf handle m.due = (firstTickAfter? handle m.events).toList) ∧
    m.requested.Nodup ∧ (∀ tick, (handlesIn tick m.fired).Sublist m.requested) ∧
    ∀ time rest, m.agenda = .act (.tick time) :: rest →
      m.reply? (.tick time) = some m.queue.handles.length ∧
      (∀ later, m.step.Leads later →
        handlesIn (m.ticks + 1) later.fired ++ handlesIn (m.ticks + 1) later.due = m.queue.handles) ∧
      (FrameCallback.AskOnly κ → ∃ k, (step^[k + 1] m).agenda = rest ∧
        handlesIn (m.ticks + 1) (step^[k + 1] m).fired = m.queue.handles) := by
  have h := reached.delivering
  refine ⟨h.begun, fun handle kept => ?_, h.nodup, fun tick => ?_, fun time rest next => ?_⟩
  · rw [← ticksOf_append]
    exact h.complete handle kept
  · refine List.Sublist.trans ?_ (h.ordered tick)
    rw [deliveries, handlesIn_append]
    exact List.sublist_append_left _ _
  · have taken (later : FrameHost κ) (leads : m.step.Leads later) :
        handlesIn (m.ticks + 1) later.fired ++ handlesIn (m.ticks + 1) later.due =
          m.queue.handles := by
      rw [← handlesIn_append]
      exact (leads.keeps (fun c took => took.change c) (h.took_step next)).taken
    refine ⟨by simp [reply?, FrameQueue.size, FrameQueue.handles], taken, fun askOnly => ?_⟩
    obtain ⟨k, ends⟩ := exists_iterate_tick askOnly next
    have settled := taken (step^[k + 1] m) (Leads.refl.iterate k)
    have due : (step^[k + 1] m).due = m.due := by rw [FrameHost.due, ends, due_of_act next]
    rw [due, h.handlesIn_due, List.append_nil] at settled
    exact ⟨k, ends, settled⟩

inductive Pulse where
  | beat

instance : FrameCallback Pulse where
  name _ := "beat"
  calls _ _ _ _ := [.request .beat]

theorem Pulse.askOnly : FrameCallback.AskOnly Pulse := by
  intro callback time queue events call member
  rw [List.mem_singleton.mp member]
  rfl

def pulsing : FrameHost Pulse :=
  { step { start with agenda := [.act (.request Pulse.beat)] } with agenda := [.act (.tick 16.0)] }

theorem start_leads_pulsing : start.Leads pulsing :=
  ((Leads.refl.call rfl (.request Pulse.beat)).step).call rfl (.tick 16.0)

theorem frames_delivered_pulsing :
    start.Leads pulsing ∧ pulsing.reply? (.tick 16.0) = some 1 ∧
      ∃ k, (step^[k + 1] pulsing).agenda = [] ∧
        handlesIn 1 (step^[k + 1] pulsing).fired = [1] :=
  have ⟨_, _, _, _, ticking⟩ := frames_delivered start_leads_pulsing
  have ⟨answer, _, ends⟩ := ticking 16.0 [] rfl
  ⟨start_leads_pulsing, answer, ends Pulse.askOnly⟩

end FrameHost
end AnimatedCanvas
