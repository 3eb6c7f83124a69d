import AnimatedCanvas.FrameQueue
import Mathlib.Data.List.Nodup

namespace AnimatedCanvas.FrameQueue

variable {τ : Type}

structure Fresh (q : FrameQueue τ) : Prop where
  nodup : q.handles.Nodup
  le_last : ∀ handle ∈ q.handles, handle ≤ q.last

theorem handles_request (q : FrameQueue τ) (item : τ) :
    (q.request item).2.handles = q.handles ++ [q.last + 1] := by
  simp [request, handles]

theorem handles_cancel (q : FrameQueue τ) (handle : Nat) :
    (q.cancel handle).handles = q.handles.filter (· != handle) := by
  simp [cancel, handles, List.filter_map, Function.comp_def]

theorem fresh_empty : (empty : FrameQueue τ).Fresh where
  nodup := List.nodup_nil
  le_last := by simp [empty, handles]

theorem Fresh.request {q : FrameQueue τ} (h : q.Fresh) (item : τ) : (q.request item).2.Fresh where
  nodup := by
    rw [handles_request]
    refine h.nodup.append (List.nodup_singleton _) ?_
    intro handle member last
    have := h.le_last handle member
    rw [List.mem_singleton.mp last] at this
    omega
  le_last := by
    intro handle member
    rw [handles_request, List.mem_append, List.mem_singleton] at member
    change handle ≤ q.last + 1
    obtain member | rfl := member
    · exact Nat.le_succ_of_le (h.le_last handle member)
    · exact Nat.le_refl _

theorem Fresh.cancel {q : FrameQueue τ} (h : q.Fresh) (handle : Nat) : (q.cancel handle).Fresh where
  nodup := by
    rw [handles_cancel]
    exact h.nodup.filter _
  le_last := by
    intro other member
    rw [handles_cancel] at member
    exact h.le_last other (List.mem_of_mem_filter member)

theorem Fresh.beginTick {q : FrameQueue τ} (time : Float) : (q.beginTick time).2.Fresh where
  nodup := List.nodup_nil
  le_last := by simp [FrameQueue.beginTick, handles]

def requestsOf (q : FrameQueue Nat) (key : Nat) : List (Nat × Nat) :=
  q.pending.filter (·.2 == key)

theorem mem_requestsOf {q : FrameQueue Nat} {key : Nat} {r : Nat × Nat} :
    r ∈ q.requestsOf key ↔ r ∈ q.pending ∧ r.2 = key := by
  simp [requestsOf]

theorem requestsOf_request {q : FrameQueue Nat} {key : Nat} (h : q.requestsOf key = []) :
    (q.request key).2.requestsOf key = [(q.last + 1, key)] := by
  change (q.pending ++ [(q.last + 1, key)]).filter (·.2 == key) = _
  rw [List.filter_append, ← requestsOf, h]
  simp

theorem requestsOf_request_of_ne (q : FrameQueue Nat) {key other : Nat} (h : other ≠ key) :
    (q.request key).2.requestsOf other = q.requestsOf other := by
  simp [request, requestsOf, h.symm]

theorem requestsOf_cancel (q : FrameQueue Nat) (handle key : Nat) :
    (q.cancel handle).requestsOf key = (q.requestsOf key).filter (·.1 != handle) := by
  simp [cancel, requestsOf, List.filter_filter, Bool.and_comm]

def owners (q : FrameQueue Nat) : List Nat := q.pending.map (·.2)

theorem mem_owners {q : FrameQueue Nat} {key : Nat} : key ∈ q.owners ↔ q.requestsOf key ≠ [] := by
  rw [owners, List.mem_map, ← List.length_pos_iff, List.length_pos_iff_exists_mem]
  simp only [mem_requestsOf]

theorem nodup_owners {q : FrameQueue Nat} (h : ∀ key, (q.requestsOf key).length ≤ 1) :
    q.owners.Nodup := by
  rw [List.nodup_iff_count_le_one]
  intro key
  rw [owners, List.count, List.countP_map, List.countP_eq_length_filter]
  exact h key

structure Changed (q : FrameQueue Nat) (key : Nat) (q' : FrameQueue Nat) : Prop where
  fresh : q'.Fresh
  last_le : q.last ≤ q'.last
  handles : ∀ handle ∈ q'.handles, handle ∈ q.handles ∨ q.last < handle
  others : ∀ other ≠ key, q'.requestsOf other = q.requestsOf other

theorem Changed.refl {q : FrameQueue Nat} (h : q.Fresh) (key : Nat) : q.Changed key q where
  fresh := h
  last_le := Nat.le_refl _
  handles := fun _ member => Or.inl member
  others := fun _ _ => rfl

theorem Fresh.changed_request {q : FrameQueue Nat} (h : q.Fresh) (key : Nat) :
    q.Changed key (q.request key).2 where
  fresh := h.request key
  last_le := Nat.le_succ _
  handles := by
    intro handle member
    rw [handles_request, List.mem_append, List.mem_singleton] at member
    obtain member | rfl := member
    · exact Or.inl member
    · exact Or.inr (Nat.lt_succ_self _)
  others := fun _ different => requestsOf_request_of_ne q different

theorem requestsOf_cancel_eq_self {q : FrameQueue Nat} {handle key : Nat}
    (h : (handle, key) ∉ q.pending) : (q.cancel handle).requestsOf key = q.requestsOf key := by
  rw [requestsOf_cancel, List.filter_eq_self]
  intro r member
  obtain ⟨waiting, rfl⟩ := mem_requestsOf.mp member
  rw [bne_iff_ne]
  rintro rfl
  exact h waiting

theorem Fresh.changed_cancel {q : FrameQueue Nat} (h : q.Fresh) {handle key : Nat}
    (owner : ∀ r ∈ q.pending, r.1 = handle → r.2 = key) : q.Changed key (q.cancel handle) where
  fresh := h.cancel handle
  last_le := Nat.le_refl _
  handles := by
    intro other member
    rw [handles_cancel] at member
    exact Or.inl (List.mem_of_mem_filter member)
  others := by
    intro other different
    apply requestsOf_cancel_eq_self
    intro waiting
    exact different (owner _ waiting rfl)

theorem Fresh.owner {q : FrameQueue Nat} (h : q.Fresh) {handle key : Nat}
    (known : (handle, key) ∈ q.pending) : ∀ r ∈ q.pending, r.1 = handle → r.2 = key := by
  intro r member same
  have := List.inj_on_of_nodup_map h.nodup member known same
  rw [this]

theorem owners_request (q : FrameQueue Nat) (key : Nat) :
    (q.request key).2.owners = q.owners ++ [key] := by
  simp [owners, request]

theorem filter_owners {q : FrameQueue Nat} {key : Nat} (h : q.requestsOf key = []) :
    q.owners.filter (· != key) = q.owners := by
  rw [List.filter_eq_self]
  intro owner member
  rw [bne_iff_ne]
  rintro rfl
  exact mem_owners.mp member h

theorem Fresh.owners_cancel {q : FrameQueue Nat} (h : q.Fresh) {handle key : Nat}
    (own : q.requestsOf key = [(handle, key)]) :
    (q.cancel handle).owners = q.owners.filter (· != key) := by
  have known : (handle, key) ∈ q.pending :=
    (mem_requestsOf.mp (own ▸ List.mem_singleton_self _)).1
  rw [owners, owners, List.filter_map]
  refine congrArg _ (List.filter_congr fun r waiting => ?_)
  have same : r.1 = handle ↔ r.2 = key := by
    refine ⟨h.owner known r waiting, fun owner => ?_⟩
    have : r ∈ q.requestsOf key := mem_requestsOf.mpr ⟨waiting, owner⟩
    rw [own, List.mem_singleton] at this
    rw [this]
  simp [bne, same]

theorem Fresh.pending_cancel_request {q : FrameQueue τ} (h : q.Fresh) (item : τ) :
    ((q.request item).2.cancel (q.last + 1)).pending = q.pending := by
  change (q.pending ++ [(q.last + 1, item)]).filter (·.1 != q.last + 1) = q.pending
  rw [List.filter_append, List.filter_eq_self.mpr]
  · simp
  · intro r waiting
    have := h.le_last r.1 (List.mem_map_of_mem waiting)
    rw [bne_iff_ne]
    omega

end AnimatedCanvas.FrameQueue
