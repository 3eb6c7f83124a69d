import AnimatedCanvas.Proofs.FrameQueue.Handles
import AnimatedCanvas.Proofs.Stage.Operation

namespace AnimatedCanvas

theorem find?_key_eq_some {α : Type} {key : α → Nat} {xs : List α} (distinct : (xs.map key).Nodup)
    {k : Nat} {x : α} : xs.find? (key · == k) = some x ↔ x ∈ xs ∧ key x = k := by
  constructor
  · intro found
    exact ⟨List.mem_of_find?_eq_some found, by simpa using List.find?_some found⟩
  · rintro ⟨member, rfl⟩
    obtain ⟨y, found⟩ : ∃ y, xs.find? (key · == key x) = some y := by
      rw [← Option.isSome_iff_exists, List.find?_isSome]
      exact ⟨x, member, by simp⟩
    have same : key y = key x := by simpa using List.find?_some found
    rw [found, List.inj_on_of_nodup_map distinct (List.mem_of_find?_eq_some found) member same]

namespace Stage

variable {α : Type} {q q' : FrameQueue Nat} {due due' : List Nat} {p : Performer α}

/-- How an animator stands to a queue, and to the keys of requests that ticks have taken: it waits for
a frame, or is about to be called, or does not run. A request that was taken can only be left of one
that does not run if it has been destroyed since. -/
inductive Standing (q : FrameQueue Nat) (due : List Nat) (p : Performer α) : Prop
  | waiting (handle : Nat) (running : p.animator.isRunning = true)
      (alive : p.animator.isDestroyed = false) (pending : p.animator.pending = some handle)
      (queued : q.requestsOf p.key = [(handle, p.key)]) (absent : p.key ∉ due)
  | called (handle : Nat) (running : p.animator.isRunning = true)
      (alive : p.animator.isDestroyed = false) (pending : p.animator.pending = some handle)
      (queued : q.requestsOf p.key = []) (taken : handle ∉ q.handles) (given : handle ≤ q.last)
      (present : p.key ∈ due)
  | stopped (still : p.animator.isRunning = false) (pending : p.animator.pending = none)
      (queued : q.requestsOf p.key = []) (ended : p.key ∈ due → p.animator.isDestroyed = true)

theorem Standing.other {key : Nat} (h : Standing q due p) (changed : q.Changed key q')
    (different : p.key ≠ key) (same : p.key ∈ due' ↔ p.key ∈ due) : Standing q' due' p := by
  have queue := changed.others p.key different
  cases h with
  | waiting handle running alive pending queued absent =>
      exact .waiting handle running alive pending (queue.trans queued) (mt same.mp absent)
  | called handle running alive pending queued taken given present =>
      refine .called handle running alive pending (queue.trans queued) ?_
        (Nat.le_trans given changed.last_le) (same.mpr present)
      intro member
      rcases changed.handles handle member with old | new
      · exact taken old
      · omega
  | stopped still pending queued ended =>
      exact .stopped still pending (queue.trans queued) fun member => ended (same.mp member)

theorem Standing.sameLoop {a : Animator α} (h : Standing q due p)
    (running : a.isRunning = p.animator.isRunning)
    (destroyed : a.isDestroyed = p.animator.isDestroyed)
    (pending : a.pending = p.animator.pending) : Standing q due { p with animator := a } := by
  cases h with
  | waiting handle r d w queued absent =>
      exact .waiting handle (running.trans r) (destroyed.trans d) (pending.trans w) queued absent
  | called handle r d w queued taken given present =>
      exact .called handle (running.trans r) (destroyed.trans d) (pending.trans w) queued taken given
        present
  | stopped r w queued ended =>
      exact .stopped (running.trans r) (pending.trans w) queued fun member =>
        destroyed.trans (ended member)

theorem Standing.requestsOf_eq_nil (h : Standing q due p) (still : p.animator.isRunning = false) :
    q.requestsOf p.key = [] := by
  cases h <;> simp_all

theorem Standing.stopped_of_destroyed (h : Standing q due p)
    (destroyed : p.animator.isDestroyed = true) :
    p.animator.isRunning = false ∧ p.animator.pending = none := by
  cases h <;> simp_all

theorem Standing.length_le (h : Standing q due p) : (q.requestsOf p.key).length ≤ 1 := by
  cases h <;> simp_all

structure Orderly (s : Stage α) (due : List Nat) : Prop where
  keys_nodup : s.keys.Nodup
  keys_le : ∀ p ∈ s.performers, p.key ≤ s.lastKey
  fresh : s.queue.Fresh
  owned : ∀ r ∈ s.queue.pending, ∃ p ∈ s.performers, p.key = r.2
  due_nodup : due.Nodup
  due_le : ∀ key ∈ due, key ≤ s.lastKey
  standing : ∀ p ∈ s.performers, Standing s.queue due p

variable {s s' : Stage α}

theorem Orderly.eq_of_key (h : s.Orderly due) {a b : Performer α} (ha : a ∈ s.performers)
    (hb : b ∈ s.performers) (same : a.key = b.key) : a = b :=
  List.inj_on_of_nodup_map h.keys_nodup ha hb same

theorem Orderly.performerOf?_eq_some (h : s.Orderly due) {key : Nat} :
    s.performerOf? key = some p ↔ p ∈ s.performers ∧ p.key = key :=
  find?_key_eq_some h.keys_nodup

theorem Orderly.performer?_eq_some (h : s.Orderly due) (member : p ∈ s.performers)
    (named : ∀ o ∈ s.performers, o.name = p.name → o.key = p.key) :
    s.performer? p.name = some p := by
  obtain ⟨o, found⟩ := exists_performer? member
  obtain ⟨there, same⟩ := mem_of_performer? found
  rw [found, h.eq_of_key there member (named o there same)]

theorem Orderly.key_ne_of_name (h : s.Orderly due) {o : Performer α} (ho : o ∈ s.performers)
    (hp : p ∈ s.performers) (different : o.name ≠ p.name) : p.key ≠ o.key := by
  intro own
  rw [h.eq_of_key hp ho own] at different
  exact different rfl

theorem Orderly.owned_of_changed (h : s.Orderly due) (member : p ∈ s.performers)
    (queue : s.queue.Changed p.key s'.queue) :
    ∀ r ∈ s'.queue.pending, ∃ o ∈ s.performers, o.key = r.2 := by
  intro r waiting
  by_cases own : r.2 = p.key
  · exact ⟨p, member, own.symm⟩
  · have kept := queue.others r.2 own
    have before : r ∈ s.queue.requestsOf r.2 :=
      kept ▸ FrameQueue.mem_requestsOf.mpr ⟨waiting, rfl⟩
    exact h.owned r (FrameQueue.mem_requestsOf.mp before).1

theorem Orderly.change (h : s.Orderly due) (member : p ∈ s.performers)
    (f : Animator α → Animator α) (performers : s'.performers = (s.modify p.key f).performers)
    (lastKey : s'.lastKey = s.lastKey) (queue : s.queue.Changed p.key s'.queue)
    (nodup : due'.Nodup) (sub : due' ⊆ due) (others : ∀ key ≠ p.key, key ∈ due → key ∈ due')
    (standing : Standing s'.queue due' { p with animator := f p.animator }) : s'.Orderly due' where
  keys_nodup := by
    rw [keys, performers, ← keys, keys_modify]
    exact h.keys_nodup
  keys_le := by
    intro p' member'
    rw [performers, mem_modify] at member'
    obtain ⟨o, old, rfl⟩ := member'
    rw [lastKey, Performer.changed_key]
    exact h.keys_le o old
  fresh := queue.fresh
  owned := by
    intro r waiting
    obtain ⟨o, old, owner⟩ := h.owned_of_changed member queue r waiting
    refine ⟨o.changed p.key f, ?_, by simpa using owner⟩
    rw [performers, mem_modify]
    exact ⟨o, old, rfl⟩
  due_nodup := nodup
  due_le := fun key member => lastKey ▸ h.due_le key (sub member)
  standing := by
    intro p' member'
    rw [performers, mem_modify] at member'
    obtain ⟨o, old, rfl⟩ := member'
    by_cases own : o.key = p.key
    · obtain rfl := h.eq_of_key old member own
      rwa [Performer.changed_self]
    · rw [Performer.changed_of_ne own]
      exact (h.standing o old).other queue own ⟨fun member => sub member, others o.key own⟩

theorem Orderly.changeCalled (h : s.Orderly (p.key :: due)) (member : p ∈ s.performers)
    (f : Animator α → Animator α) (performers : s'.performers = (s.modify p.key f).performers)
    (lastKey : s'.lastKey = s.lastKey) (queue : s.queue.Changed p.key s'.queue)
    (standing : s.queue.requestsOf p.key = [] → p.key ∉ due →
      Standing s'.queue due { p with animator := f p.animator }) : s'.Orderly due := by
  obtain ⟨absent, nodup⟩ := List.nodup_cons.mp h.due_nodup
  have queued : s.queue.requestsOf p.key = [] := by
    cases h.standing p member <;> simp_all
  exact h.change member f performers lastKey queue nodup (List.subset_cons_self _ _)
    (fun _ different member => (List.mem_cons.mp member).resolve_left different)
    (standing queued absent)

theorem Orderly.skipped (h : s.Orderly (p.key :: due)) (member : p ∈ s.performers) :
    (s.modify p.key Animator.skipped).Orderly due :=
  h.changeCalled member Animator.skipped rfl rfl (.refl h.fresh _)
    fun queued absent => .stopped rfl rfl queued fun present => absurd present absent

theorem Orderly.modify (h : s.Orderly due) (member : p ∈ s.performers)
    {f : Animator α → Animator α} (running : (f p.animator).isRunning = p.animator.isRunning)
    (destroyed : (f p.animator).isDestroyed = p.animator.isDestroyed)
    (pending : (f p.animator).pending = p.animator.pending) : (s.modify p.key f).Orderly due :=
  h.change member f rfl rfl (.refl h.fresh _) h.due_nodup (List.Subset.refl _) (fun _ _ => id)
    ((h.standing p member).sameLoop running destroyed pending)

theorem Orderly.modifyRecorder (h : s.Orderly due) (id : String) (f : Recorder → Recorder) :
    (s.modifyRecorder id f).Orderly due :=
  ⟨h.keys_nodup, h.keys_le, h.fresh, h.owned, h.due_nodup, h.due_le, h.standing⟩

theorem orderly_withSurfaces (surfaces : List (String × Option Recorder)) :
    (withSurfaces surfaces : Stage α).Orderly [] where
  keys_nodup := List.nodup_nil
  keys_le := by simp [withSurfaces, empty]
  fresh := FrameQueue.fresh_empty
  owned := by simp [withSurfaces, empty, FrameQueue.empty]
  due_nodup := List.nodup_nil
  due_le := by simp
  standing := by simp [withSurfaces, empty]

theorem Orderly.exists_owner (h : s.Orderly due) {key : Nat} (taken : key ∈ s.queue.owners) :
    ∃ p ∈ s.performers, p.key = key := by
  obtain ⟨r, waiting, rfl⟩ := List.mem_map.mp taken
  exact h.owned r waiting

theorem Orderly.nodup_owners (h : s.Orderly due) : s.queue.owners.Nodup := by
  apply FrameQueue.nodup_owners
  intro key
  by_cases taken : key ∈ s.queue.owners
  · obtain ⟨p, member, rfl⟩ := h.exists_owner taken
    exact (h.standing p member).length_le
  · rw [FrameQueue.mem_owners, not_not] at taken
    simp [taken]

theorem Standing.beginTick (h : Standing q due p) (fresh : q.Fresh) (time : Float) :
    Standing (q.beginTick time).2 (q.owners ++ due) p := by
  cases h with
  | waiting handle running alive pending queued absent =>
      have own : (handle, p.key) ∈ q.requestsOf p.key := queued ▸ List.mem_singleton_self _
      refine .called handle running alive pending rfl List.not_mem_nil ?_ ?_
      · exact fresh.le_last handle (List.mem_map_of_mem (FrameQueue.mem_requestsOf.mp own).1)
      · exact List.mem_append_left _ (FrameQueue.mem_owners.mpr (List.ne_nil_of_mem own))
  | called handle running alive pending queued taken given present =>
      exact .called handle running alive pending rfl List.not_mem_nil given
        (List.mem_append_right _ present)
  | stopped still pending queued ended =>
      refine .stopped still pending rfl fun member => ?_
      rcases List.mem_append.mp member with new | old
      · exact absurd queued (FrameQueue.mem_owners.mp new)
      · exact ended old

theorem Orderly.beginTick (h : s.Orderly due) (time : Float) :
    (s.beginTick time).2.Orderly ((s.beginTick time).1 ++ due) where
  keys_nodup := h.keys_nodup
  keys_le := h.keys_le
  fresh := FrameQueue.Fresh.beginTick time
  owned := by simp [Stage.beginTick, FrameQueue.beginTick]
  due_nodup := by
    refine h.nodup_owners.append h.due_nodup ?_
    intro key taken present
    obtain ⟨p, member, rfl⟩ := h.exists_owner taken
    have queued := FrameQueue.mem_owners.mp taken
    cases h.standing p member <;> simp_all
  due_le := by
    intro key called
    rcases List.mem_append.mp called with taken | old
    · obtain ⟨p, member, rfl⟩ := h.exists_owner taken
      exact h.keys_le p member
    · exact h.due_le key old
  standing := fun p member => (h.standing p member).beginTick h.fresh time

/-- An animator runs, and the queue holds one request of its own, under the handle it waits for. -/
def Loops (s : Stage α) (p : Performer α) : Prop :=
  p.animator.isRunning = true ∧ p.animator.isDestroyed = false ∧
    ∃ handle, p.animator.pending = some handle ∧ s.queue.requestsOf p.key = [(handle, p.key)]

/-- An animator does not run, waits for nothing, and the queue holds nothing of its own. -/
def Rests (s : Stage α) (p : Performer α) : Prop :=
  p.animator.isRunning = false ∧ p.animator.pending = none ∧ s.queue.requestsOf p.key = []

theorem Standing.loops_or_rests (h : Standing s.queue [] p) : Xor (s.Loops p) (s.Rests p) := by
  cases h with
  | waiting handle running alive pending queued absent =>
      refine .inl ⟨⟨running, alive, handle, pending, queued⟩, fun rests => ?_⟩
      simp [rests.1] at running
  | called handle running alive pending queued taken given present => cases present
  | stopped still pending queued ended =>
      refine .inr ⟨⟨still, pending, queued⟩, fun loops => ?_⟩
      simp [loops.1] at still

end Stage
end AnimatedCanvas
