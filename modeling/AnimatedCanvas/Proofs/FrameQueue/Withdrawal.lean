import AnimatedCanvas.Proofs.FrameQueue.Delivery
import AnimatedCanvas.Proofs.FrameQueue.Script

/-!
# Withdrawn frames

A request that is withdrawn while it waits is never fired, and withdrawing any other handle changes
nothing (`cancelled_while_waiting`).

A tick takes the waiting requests out of the queue before it fires the first of them. A request that
has been taken does not wait any more, so that a callback comes too late to withdraw those that are
fired after it in the same tick (`cancelled_too_late`).
-/

namespace AnimatedCanvas

theorem FrameQueue.cancel_eq_self {τ : Type} {q : FrameQueue τ} {handle : Nat}
    (absent : handle ∉ q.handles) : q.cancel handle = q := by
  have kept : q.pending.filter (·.1 != handle) = q.pending := by
    rw [List.filter_eq_self]
    intro request member
    rw [bne_iff_ne]
    rintro rfl
    exact absent (List.mem_map_of_mem member)
  rw [cancel, kept]

namespace FrameHost

variable {κ : Type} {m m' : FrameHost κ} {handle : Nat} {ticks : List Nat}

structure Settled (handle : Nat) (ticks : List Nat) (m : FrameHost κ) : Prop where
  known : handle ≤ m.queue.last
  idle : handle ∉ m.queue.handles
  delivered : ticksOf handle m.deliveries = ticks

theorem Settled.change (c : Change m m') (h : Settled handle ticks m) : Settled handle ticks m' := by
  cases c with
  | request callback queue begun events deliveries =>
      refine ⟨?_, ?_, deliveries ▸ h.delivered⟩
      · rw [queue]
        exact Nat.le_succ_of_le h.known
      · rw [queue, FrameQueue.handles_request, List.mem_append, List.mem_singleton]
        exact not_or.mpr ⟨h.idle, (Nat.lt_succ_of_le h.known).ne⟩
  | cancel other queue begun events deliveries =>
      refine ⟨by rw [queue]; exact h.known, ?_, deliveries ▸ h.delivered⟩
      rw [queue, FrameQueue.handles_cancel]
      exact fun member => h.idle (List.mem_of_mem_filter member)
  | tick time queue begun events deliveries =>
      refine ⟨by rw [queue]; exact h.known, by rw [queue]; exact List.not_mem_nil, ?_⟩
      have none : m.queue.handles.count handle = 0 := List.count_eq_zero.mpr h.idle
      rw [deliveries, ticksOf_append, ticksOf_append, ticksOf_map, none, List.replicate_zero,
        List.nil_append, ← ticksOf_append]
      exact h.delivered
  | fire tick other name time queue begun events deliveries =>
      exact ⟨queue ▸ h.known, queue ▸ h.idle, deliveries ▸ h.delivered⟩
  | still queue begun events deliveries =>
      exact ⟨queue ▸ h.known, queue ▸ h.idle, deliveries ▸ h.delivered⟩

theorem Delivering.known_of_waiting (h : m.Delivering) (waiting : handle ∈ m.queue.handles) :
    handle ≤ m.queue.last :=
  h.le_last (h.waiting.subset waiting)

theorem Delivering.known_of_due (h : m.Delivering) {tick : Nat} (taken : (tick, handle) ∈ m.due) :
    handle ≤ m.queue.last := by
  refine h.le_last ((h.ordered tick).subset ?_)
  rw [handlesIn, List.mem_map]
  exact ⟨(tick, handle), by simp [deliveries, taken], rfl⟩

theorem mem_ticksOf {tick : Nat} {ds : List (Nat × Nat)} :
    tick ∈ ticksOf handle ds ↔ (tick, handle) ∈ ds := by
  simp [ticksOf]

variable [FrameCallback κ]

theorem step_cancel {rest : List (FrameTask κ)} (next : m.agenda = .act (.cancel handle) :: rest) :
    m.step = { m with
      queue := m.queue.cancel handle, agenda := rest, history := .cancelled handle :: m.history } :=
  step_act next

theorem deliveries_step_cancel {rest : List (FrameTask κ)}
    (next : m.agenda = .act (.cancel handle) :: rest) : m.step.deliveries = m.deliveries := by
  rw [step_cancel next, deliveries, deliveries, due_of_act next]
  simp [fired, events, due, FrameEvent.firing?]

theorem settled_step_cancel {rest : List (FrameTask κ)}
    (next : m.agenda = .act (.cancel handle) :: rest) (known : handle ≤ m.queue.last) :
    Settled handle (ticksOf handle m.deliveries) m.step where
  known := by
    rw [step_cancel next]
    exact known
  idle := by
    rw [step_cancel next]
    change handle ∉ (m.queue.cancel handle).handles
    simp [FrameQueue.handles_cancel]
  delivered := by rw [deliveries_step_cancel next]

/-- A request that is withdrawn while it waits is never fired. Withdrawing a handle that does not wait
changes nothing, so that a request which a tick has taken is still fired by it. -/
theorem cancelled_while_waiting (reached : start.Leads m) {rest : List (FrameTask κ)}
    (next : m.agenda = .act (.cancel handle) :: rest) :
    (handle ∈ m.queue.handles →
      ∀ later, m.step.Leads later → ∀ tick, (tick, handle) ∉ later.fired) ∧
    (handle ∉ m.queue.handles →
      m.step = { m with agenda := rest, history := .cancelled handle :: m.history }) ∧
    (∀ tick, (tick, handle) ∈ m.due →
      ∀ later, m.step.Leads later → (tick, handle) ∈ later.fired ∨ (tick, handle) ∈ later.due) := by
  have h := reached.delivering
  have settled (known : handle ≤ m.queue.last) (later : FrameHost κ) (leads : m.step.Leads later) :
      ticksOf handle later.deliveries = ticksOf handle m.deliveries :=
    (leads.keeps (fun c settled => settled.change c) (settled_step_cancel next known)).delivered
  refine ⟨fun waiting later leads tick fired => ?_, fun absent => ?_, fun tick taken later leads => ?_⟩
  · have none : ticksOf handle later.deliveries = [] := by
      rw [settled (h.known_of_waiting waiting) later leads, h.undelivered waiting]
    have delivered : tick ∈ ticksOf handle later.deliveries :=
      mem_ticksOf.mpr (List.mem_append_left _ fired)
    rw [none] at delivered
    cases delivered
  · rw [step_cancel next, FrameQueue.cancel_eq_self absent]
  · have delivered : tick ∈ ticksOf handle later.deliveries := by
      rw [settled (h.known_of_due taken) later leads, mem_ticksOf]
      exact List.mem_append_right _ taken
    exact List.mem_append.mp (mem_ticksOf.mp delivered)

def earlyCancel : FrameMachine :=
  { start.perform (.request "only" []) with agenda := [.act (.cancel 1)] }

theorem start_leads_earlyCancel : start.Leads earlyCancel :=
  (Leads.refl.perform rfl (.request "only" [])).call (agenda_finish _) (.cancel 1)

theorem cancelled_while_waiting_early :
    start.Leads earlyCancel ∧ 1 ∈ earlyCancel.queue.handles ∧
      ∀ later, earlyCancel.step.Leads later → ∀ tick, (tick, 1) ∉ later.fired :=
  have waiting : 1 ∈ earlyCancel.queue.handles := by decide
  have next : earlyCancel.agenda = .act (.cancel 1) :: [] := rfl
  have ⟨never, _⟩ := cancelled_while_waiting start_leads_earlyCancel next
  ⟨start_leads_earlyCancel, waiting, never waiting⟩

def rivals : FrameMachine :=
  (start.perform (.request "first" [.cancel 2])).perform (.request "second" [])

def lateCancel : FrameMachine :=
  step^[2] { rivals with agenda := [.act (.tick 1.0)] }

theorem start_leads_lateCancel : start.Leads lateCancel :=
  have first := Leads.refl.perform rfl (.request "first" [.cancel 2])
  have second := first.perform (agenda_finish _) (.request "second" [])
  (second.call (agenda_finish _) (.tick 1.0)).iterate 2

/-- A request that has not been fired yet is withdrawn, and it is fired all the same. -/
theorem cancelled_too_late :
    start.Leads lateCancel ∧ lateCancel.requested = [1, 2] ∧ lateCancel.fired = [(1, 1)] ∧
      lateCancel.agenda.head? = some (.act (.cancel 2)) ∧
      lateCancel.Leads (step^[2] lateCancel) ∧ (step^[2] lateCancel).withdrawn = [2] ∧
      (step^[2] lateCancel).fired = [(1, 1), (1, 2)] :=
  ⟨start_leads_lateCancel, rfl, rfl, rfl, Leads.refl.iterate 2, rfl, rfl⟩

end FrameHost
end AnimatedCanvas
