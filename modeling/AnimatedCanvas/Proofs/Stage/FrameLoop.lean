import AnimatedCanvas.Proofs.Stage.Standing
import AnimatedCanvas.Random.Generator

/-!
# The frame loops of a stage

Every operation keeps a stage orderly, whatever requests are due: an operation may come in the midst
of a tick. A tick moves the waiting requests to the due ones and fires them one by one, and with none
left every animator either waits for exactly one frame or has stopped.
-/

namespace AnimatedCanvas.Stage

variable {α : Type} {q : FrameQueue Nat} {due : List Nat} {s s' : Stage α} {p : Performer α}

theorem mem_startPerformer {o : Performer α} (member : p ∈ s.performers) (different : p.key ≠ o.key) :
    p ∈ (s.startPerformer o).performers := by
  cases start : o.animator.canStart with
  | false => rwa [startPerformer_of_not_canStart start]
  | true =>
      rw [startPerformer_of_canStart start]
      exact mem_modify_of_ne (s := { s with queue := (s.queue.request o.key).2 }) member different _

theorem Orderly.startPerformer (h : s.Orderly due) (member : p ∈ s.performers) :
    (s.startPerformer p).Orderly due := by
  cases start : p.animator.canStart with
  | false =>
      rw [startPerformer_of_not_canStart start]
      exact h
  | true =>
      rw [startPerformer_of_canStart start]
      obtain ⟨idle, alive⟩ := Animator.canStart_eq_true.mp start
      refine h.change member (·.start (s.queue.last + 1)) rfl rfl (h.fresh.changed_request p.key)
        h.due_nodup (List.Subset.refl _) (fun _ _ => id) ?_
      cases h.standing p member with
      | waiting handle running => simp [idle] at running
      | called handle running => simp [idle] at running
      | stopped still pending queued ended =>
          refine .waiting (s.queue.last + 1) rfl alive rfl (FrameQueue.requestsOf_request queued) ?_
          intro due
          simpa [alive] using ended due

section

variable {name : String} {animator : Animator α}

theorem Orderly.requestsOf_newcomer (h : s.Orderly due) :
    s.queue.requestsOf (s.newcomer name animator).key = [] := by
  rw [List.eq_nil_iff_forall_not_mem]
  intro r member
  obtain ⟨waiting, own⟩ := FrameQueue.mem_requestsOf.mp member
  obtain ⟨o, old, owner⟩ := h.owned r waiting
  have := h.keys_le o old
  simp only [newcomer] at own
  omega

theorem Orderly.newcomer_not_mem_due (h : s.Orderly due) :
    (s.newcomer name animator).key ∉ due := by
  intro member
  have := h.due_le _ member
  simp only [newcomer] at this
  omega

theorem Orderly.key_ne_newcomer (h : s.Orderly due) (member : p ∈ s.performers) :
    p.key ≠ (s.newcomer name animator).key := by
  have := h.keys_le p member
  simp only [newcomer]
  omega

theorem Orderly.enter (h : s.Orderly due) (name : String) (still : animator.isRunning = false)
    (pending : animator.pending = none) : (s.enter name animator).Orderly due where
  keys_nodup := by
    simp only [keys, Stage.enter, List.map_append, List.map_cons, List.map_nil]
    refine h.keys_nodup.append (List.nodup_singleton _) ?_
    intro key old new
    obtain ⟨o, member, rfl⟩ := List.mem_map.mp old
    exact h.key_ne_newcomer member (List.mem_singleton.mp new)
  keys_le := by
    intro o member
    change o.key ≤ s.lastKey + 1
    rcases mem_enter.mp member with old | rfl
    · exact Nat.le_succ_of_le (h.keys_le o old)
    · exact Nat.le_refl _
  fresh := h.fresh
  owned := by
    intro r waiting
    obtain ⟨o, old, owner⟩ := h.owned r waiting
    exact ⟨o, mem_enter.mpr (.inl old), owner⟩
  due_nodup := h.due_nodup
  due_le := fun key member => Nat.le_succ_of_le (h.due_le key member)
  standing := by
    intro o member
    rcases mem_enter.mp member with old | rfl
    · exact h.standing o old
    · exact .stopped still pending h.requestsOf_newcomer fun member =>
        absurd member h.newcomer_not_mem_due

theorem Orderly.entered (h : s.Orderly due) (name : String) (still : animator.isRunning = false)
    (pending : animator.pending = none) (isStarted : Bool) :
    (s.entered name animator isStarted).Orderly due := by
  have entered := h.enter name still pending
  cases isStarted with
  | false => exact entered
  | true => exact entered.startPerformer (newcomer_mem s name animator)

theorem Orderly.mem_entered (h : s.Orderly due) (member : p ∈ s.performers) (name : String)
    (animator : Animator α) (isStarted : Bool) :
    p ∈ (s.entered name animator isStarted).performers := by
  have old : p ∈ (s.enter name animator).performers := mem_enter.mpr (.inl member)
  cases isStarted with
  | false => exact old
  | true => exact mem_startPerformer old (h.key_ne_newcomer member)

end

variable [Scene α]

theorem Orderly.destroyPerformer (h : s.Orderly due) (member : p ∈ s.performers) :
    (s.destroyPerformer p).Orderly due := by
  -- Whatever its request, the queue has none left once this one has been withdrawn.
  have withdraw (handle : Nat) (alive : p.animator.isDestroyed = false)
      (pending : p.animator.pending = some handle)
      (changed : s.queue.Changed p.key (s.queue.cancel handle))
      (none : (s.queue.cancel handle).requestsOf p.key = []) : (s.destroyPerformer p).Orderly due := by
    rw [destroyPerformer_of_waiting pending]
    refine h.change member _ rfl rfl changed h.due_nodup (List.Subset.refl _) (fun _ _ => id) ?_
    rw [Animator.destroy_of_alive alive]
    exact .stopped rfl rfl none fun _ => rfl
  cases h.standing p member with
  | waiting handle running alive pending queued absent =>
      have known : (handle, p.key) ∈ s.queue.pending :=
        (FrameQueue.mem_requestsOf.mp (queued ▸ List.mem_singleton_self _)).1
      refine withdraw handle alive pending (h.fresh.changed_cancel (h.fresh.owner known)) ?_
      simp [FrameQueue.requestsOf_cancel, queued]
  | called handle running alive pending queued taken given present =>
      have unknown : ∀ r ∈ s.queue.pending, r.1 = handle → r.2 = p.key := by
        rintro r waiting rfl
        exact absurd (List.mem_map_of_mem waiting) taken
      refine withdraw handle alive pending (h.fresh.changed_cancel unknown) ?_
      simp [FrameQueue.requestsOf_cancel, queued]
  | stopped still pending queued ended =>
      rw [destroyPerformer_of_stopped pending]
      refine h.change member _ rfl rfl (.refl h.fresh _) h.due_nodup (List.Subset.refl _)
        (fun _ _ => id) ?_
      cases alive : p.animator.isDestroyed with
      | true =>
          rw [Animator.destroy_of_destroyed alive]
          exact h.standing p member
      | false =>
          rw [Animator.destroy_of_alive alive]
          exact .stopped rfl rfl queued fun _ => rfl

theorem Standing.isRunning_destroy (h : Standing q due p) : p.animator.destroy.isRunning = false := by
  cases alive : p.animator.isDestroyed with
  | false => rw [Animator.destroy_of_alive alive]
  | true =>
      rw [Animator.destroy_of_destroyed alive]
      exact (h.stopped_of_destroyed alive).1

theorem Orderly.requestsOf_destroyPerformer (h : s.Orderly due) (member : p ∈ s.performers) :
    (s.destroyPerformer p).queue.requestsOf p.key = [] := by
  have destroyed := performers_destroyPerformer s p ▸ mem_modify_self member Animator.destroy
  exact ((h.destroyPerformer member).standing _ destroyed).requestsOf_eq_nil
    (h.standing p member).isRunning_destroy

theorem Orderly.dropPerformer (h : s.Orderly due) (member : p ∈ s.performers) :
    (s.dropPerformer p).Orderly due where
  keys_nodup := (h.destroyPerformer member).keys_nodup.sublist (List.filter_sublist.map _)
  keys_le := fun o old => (h.destroyPerformer member).keys_le o (List.mem_of_mem_filter old)
  fresh := (h.destroyPerformer member).fresh
  owned := by
    intro r waiting
    obtain ⟨o, old, owner⟩ := (h.destroyPerformer member).owned r waiting
    refine ⟨o, List.mem_filter.mpr ⟨old, ?_⟩, owner⟩
    rw [bne_iff_ne]
    intro own
    have : r ∈ (s.destroyPerformer p).queue.requestsOf p.key :=
      FrameQueue.mem_requestsOf.mpr ⟨waiting, owner.symm.trans own⟩
    simp [h.requestsOf_destroyPerformer member] at this
  due_nodup := h.due_nodup
  due_le := (h.destroyPerformer member).due_le
  standing := fun o old => (h.destroyPerformer member).standing o (List.mem_of_mem_filter old)

theorem Orderly.add (h : s.Orderly due) (name : String) {animator : Animator α}
    (still : animator.isRunning = false) (pending : animator.pending = none) (isStarted : Bool) :
    (s.add name animator isStarted).Orderly due := by
  have entered := h.entered name still pending isStarted
  rw [add_eq]
  cases found : s.performer? name with
  | none => exact entered
  | some old =>
      exact entered.dropPerformer
        (h.mem_entered (List.mem_of_find?_eq_some found) name animator isStarted)

theorem Orderly.perform (h : s.Orderly due) (member : p ∈ s.performers) (request : Request) :
    (s.perform p request).Orderly due := by
  have answer := s.answer_perform p request
  generalize s.perform p request = s' at answer ⊢
  cases answer with
  | nothing => exact h
  | started => exact h.startPerformer member
  | destroyed => exact h.destroyPerformer member
  | scene f => refine h.modify member ?_ ?_ ?_ <;> unfold Animator.withScene <;> split <;> rfl
  | resized size => refine h.modify member ?_ ?_ ?_ <;> unfold Animator.resize <;> split <;> rfl

theorem Orderly.drawn (h : s.Orderly (p.key :: due)) (member : p ∈ s.performers)
    (running : p.animator.isRunning = true) (alive : p.animator.isDestroyed = false) :
    (({ s with queue := (s.queue.request p.key).2 } : Stage α).modify p.key
      (·.drawn (s.queue.last + 1))).Orderly due :=
  h.changeCalled member (·.drawn (s.queue.last + 1)) rfl rfl (h.fresh.changed_request p.key)
    fun queued absent => .waiting (s.queue.last + 1) running alive rfl
      (FrameQueue.requestsOf_request queued) absent

theorem Orderly.runFrame (h : s.Orderly (p.key :: due)) (member : p ∈ s.performers) :
    (s.runFrame p).Orderly due := by
  cases draws : p.animator.draws (s.isAttached p.animator.surface) with
  | true =>
      obtain ⟨⟨alive, running⟩, -⟩ := Animator.draws_eq_true.mp draws
      rw [runFrame_of_draws draws]
      exact (h.modifyRecorder p.animator.surface (·.draw p.animator.frameCommands)).drawn member
        running alive
  | false =>
      rw [runFrame_of_not_draws draws]
      exact h.skipped member

theorem Orderly.fire {key : Nat} (h : s.Orderly (key :: due)) : (s.fire key).Orderly due := by
  unfold Stage.fire
  cases found : s.performerOf? key with
  | some p =>
      obtain ⟨member, rfl⟩ := h.performerOf?_eq_some.mp found
      exact h.runFrame member
  | none =>
      -- The animator has been dropped since its request was taken.
      refine ⟨h.keys_nodup, h.keys_le, h.fresh, h.owned, h.due_nodup.of_cons,
        fun key member => h.due_le key (List.mem_cons_of_mem _ member), fun p member => ?_⟩
      have different : p.key ≠ key := by
        intro own
        have := h.performerOf?_eq_some.mpr ⟨member, own⟩
        simp [found] at this
      exact (h.standing p member).other (.refl h.fresh key) different (by simp [different])

theorem Orderly.fireAll {keys : List Nat} (h : s.Orderly (keys ++ due)) :
    (keys.foldl Stage.fire s).Orderly due := by
  induction keys generalizing s with
  | nil => exact h
  | cons key keys ih => exact ih h.fire

theorem Orderly.tick (h : s.Orderly due) (time : Float) : (s.tick time).2.Orderly due :=
  (h.beginTick time).fireAll

theorem Orderly.outcome (h : s.Orderly due) {operation : Operation α}
    (outcome : s.Outcome operation s') : s'.Orderly due := by
  cases outcome with
  | nothing => exact h
  | mounted name id build scene size => exact h.add name rfl rfl true
  | mountedStopped name id build scene size => exact h.add name rfl rfl false
  | performed p member request => exact h.perform member request
  | dropped p member => exact h.dropPerformer member
  | recorded operation id f => exact h.modifyRecorder id f
  | ticked time => exact h.tick time

theorem Orderly.operate (h : s.Orderly due) (operation : Operation α) :
    (s.operate operation).Orderly due :=
  h.outcome (s.outcome_operate operation)

theorem Orderly.play (h : s.Orderly due) (operations : List (Operation α)) :
    (s.play operations).Orderly due := by
  induction operations generalizing s with
  | nil => exact h
  | cons operation operations ih => exact ih (h.operate operation)

/-- After any history, each animator either loops or rests, the queue holds no two requests under one
handle and none without an animator, and setting up one more animator in vain leaves it alone. -/
theorem play_loops_or_rests (surfaces : List (String × Option Recorder))
    (operations : List (Operation α)) :
    let s := (withSurfaces surfaces).play operations
    (∀ p ∈ s.performers, Xor (s.Loops p) (s.Rests p)) ∧ s.keys.Nodup ∧ s.queue.handles.Nodup ∧
      (∀ r ∈ s.queue.pending, ∃ p ∈ s.performers, p.key = r.2) ∧
      ∀ name id build error, s.mount name id build = .error error →
        (s.operate (.mount name id build)).queue = s.queue := by
  intro s
  have h : s.Orderly [] := (orderly_withSurfaces surfaces).play operations
  refine ⟨fun p member => (h.standing p member).loops_or_rests, h.keys_nodup, h.fresh.nodup, h.owned,
    ?_⟩
  intro name id build error failed
  simp only [Stage.operate, failed]

def blankDiagram (size : Size) : Except ConfigError (CircuitDiagram Generator) :=
  .ok { config := {}, size, events := [], sweep := 0.0, random := ⟨1, 2, 3, 4⟩ }

theorem blankDiagram_loops_or_rests :
    let s := (withSurfaces [("fx", some (.create ⟨200.0, 100.0⟩))]).play
      [.mount "a" "fx" blankDiagram, .tick 16.0, .ask "a" .start]
    ∃ p ∈ s.performers, s.mount "b" "gone" blankDiagram = .error (.surfaceNotFound "gone") ∧
      Xor (s.Loops p) (s.Rests p) ∧ (s.operate (.mount "b" "gone" blankDiagram)).queue = s.queue := by
  intro s
  obtain ⟨shapes, -, -, -, failed⟩ := play_loops_or_rests
    [("fx", some (.create ⟨200.0, 100.0⟩))]
    [.mount "a" "fx" blankDiagram, .tick 16.0, .ask "a" .start]
  have found : s.performers.length = 1 := rfl
  obtain ⟨p, performers⟩ := List.length_eq_one_iff.mp found
  have member : p ∈ s.performers := performers ▸ List.mem_singleton_self p
  exact ⟨p, member, rfl, shapes p member, failed "b" "gone" blankDiagram _ rfl⟩

end AnimatedCanvas.Stage
