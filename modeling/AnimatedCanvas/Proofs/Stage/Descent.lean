import AnimatedCanvas.Proofs.Stage.FrameLoop

namespace AnimatedCanvas

variable {α : Type}

/-- What an animator keeps on a stage, whatever happens to it. -/
structure Performer.Becomes (p p' : Performer α) : Prop where
  key : p.key = p'.key
  name : p.name = p'.name
  surface : p.animator.surface = p'.animator.surface

namespace Performer

theorem Becomes.refl (p : Performer α) : p.Becomes p := ⟨rfl, rfl, rfl⟩

theorem Becomes.trans {p p' p'' : Performer α} (h : p.Becomes p') (h' : p'.Becomes p'') :
    p.Becomes p'' :=
  ⟨h.key.trans h'.key, h.name.trans h'.name, h.surface.trans h'.surface⟩

theorem Becomes.eq_of_animator {p p' : Performer α} (h : p.Becomes p')
    (same : p.animator = p'.animator) : p' = p := by
  cases p
  cases p'
  obtain ⟨rfl, rfl, -⟩ := h
  cases same
  rfl

end Performer

namespace Stage

variable {s s' s'' : Stage α} {p : Performer α} {due : List Nat} {name : String}
  {animator : Animator α} {isStarted : Bool}

def Edits (s : Stage α) (key : Nat) (s' : Stage α) : Prop :=
  ∃ f : Animator α → Animator α, (∀ a, (f a).surface = a.surface) ∧
    s'.performers = (s.modify key f).performers

theorem Edits.modify (s : Stage α) (key : Nat) {f : Animator α → Animator α}
    (surface : ∀ a, (f a).surface = a.surface) : s.Edits key (s.modify key f) :=
  ⟨f, surface, rfl⟩

theorem Edits.refl (s : Stage α) (key : Nat) : s.Edits key s := by
  refine ⟨id, fun _ => rfl, ?_⟩
  simp [performers_modify, Performer.changed]

theorem Edits.mem (h : s.Edits p.key s') {o : Performer α} (member : o ∈ s.performers)
    (different : o.key ≠ p.key) : o ∈ s'.performers := by
  obtain ⟨f, -, performers⟩ := h
  rw [performers]
  exact mem_modify_of_ne member different f

theorem edits_startPerformer (s : Stage α) (p : Performer α) : s.Edits p.key (s.startPerformer p) := by
  cases start : p.animator.canStart with
  | true =>
      rw [startPerformer_of_canStart start]
      exact ⟨(·.start (s.queue.last + 1)), fun _ => rfl, rfl⟩
  | false =>
      rw [startPerformer_of_not_canStart start]
      exact .refl s p.key

theorem surfaces_startPerformer (s : Stage α) (p : Performer α) :
    (s.startPerformer p).surfaces = s.surfaces := by
  unfold startPerformer
  split <;> rfl

def Stems (s' s : Stage α) : Prop := ∀ p' ∈ s'.performers, ∃ p ∈ s.performers, p.Becomes p'

theorem Stems.of_subset (h : s'.performers ⊆ s.performers) : s'.Stems s :=
  fun p member => ⟨p, h member, .refl p⟩

theorem stems_modifyRecorder (s : Stage α) (id : String) (f : Recorder → Recorder) :
    (s.modifyRecorder id f).Stems s :=
  .of_subset (List.Subset.refl _)

theorem stems_beginTick (s : Stage α) (time : Float) : (s.beginTick time).2.Stems s :=
  .of_subset (List.Subset.refl _)

theorem Stems.trans (h' : s''.Stems s') (h : s'.Stems s) : s''.Stems s := by
  intro p'' member
  obtain ⟨p', member', becomes'⟩ := h' p'' member
  obtain ⟨p, old, becomes⟩ := h p' member'
  exact ⟨p, old, becomes.trans becomes'⟩

theorem Edits.stems {key : Nat} (h : s.Edits key s') : s'.Stems s := by
  obtain ⟨f, surface, performers⟩ := h
  intro p' member
  rw [performers, mem_modify] at member
  obtain ⟨p, old, rfl⟩ := member
  refine ⟨p, old, by simp, by simp, ?_⟩
  unfold Performer.changed
  split
  · exact (surface p.animator).symm
  · rfl

theorem stems_entered (s : Stage α) (name : String) (animator : Animator α) (isStarted : Bool) :
    (s.entered name animator isStarted).Stems (s.enter name animator) := by
  cases isStarted with
  | true => exact (edits_startPerformer _ _).stems
  | false => exact .of_subset (List.Subset.refl _)

theorem surfaces_entered (s : Stage α) (name : String) (animator : Animator α) (isStarted : Bool) :
    (s.entered name animator isStarted).surfaces = s.surfaces := by
  cases isStarted with
  | true => exact surfaces_startPerformer _ _
  | false => rfl

def NamesApart (s : Stage α) : Prop :=
  ∀ a ∈ s.performers, ∀ b ∈ s.performers, a.name = b.name → a.key = b.key

theorem NamesApart.stems (h : s.NamesApart) (stems : s'.Stems s) : s'.NamesApart := by
  intro a' ha b' hb same
  obtain ⟨a, oldA, becomesA⟩ := stems a' ha
  obtain ⟨b, oldB, becomesB⟩ := stems b' hb
  rw [← becomesA.key, ← becomesB.key]
  exact h a oldA b oldB (by rw [becomesA.name, becomesB.name, same])

theorem NamesApart.performer?_eq_some (h : s.NamesApart) (orderly : s.Orderly due) :
    s.performer? name = some p ↔ p ∈ s.performers ∧ p.name = name := by
  constructor
  · exact mem_of_performer?
  · rintro ⟨member, rfl⟩
    exact orderly.performer?_eq_some member fun o there same => h o there p member same

theorem namesApart_withSurfaces (surfaces : List (String × Option Recorder)) :
    (withSurfaces surfaces : Stage α).NamesApart := by
  intro a absent
  cases absent

variable [Scene α]

theorem edits_destroyPerformer (s : Stage α) (p : Performer α) :
    s.Edits p.key (s.destroyPerformer p) :=
  ⟨_, Animator.surface_destroy, performers_destroyPerformer s p⟩

theorem surfaces_destroyPerformer (s : Stage α) (p : Performer α) :
    (s.destroyPerformer p).surfaces = s.surfaces := by
  unfold destroyPerformer
  split <;> rfl

theorem edits_perform (s : Stage α) (p : Performer α) (request : Request) :
    s.Edits p.key (s.perform p request) := by
  have answer := s.answer_perform p request
  generalize s.perform p request = s' at answer ⊢
  cases answer with
  | nothing => exact .refl s p.key
  | started => exact edits_startPerformer s p
  | destroyed => exact edits_destroyPerformer s p
  | scene f => exact .modify s p.key (Animator.surface_withScene f)
  | resized size => exact .modify s p.key (Animator.surface_resize size)

theorem surfaces_perform (s : Stage α) (p : Performer α) (request : Request) :
    (s.perform p request).surfaces = s.surfaces := by
  have answer := s.answer_perform p request
  generalize s.perform p request = s' at answer ⊢
  cases answer with
  | started => exact surfaces_startPerformer s p
  | destroyed => exact surfaces_destroyPerformer s p
  | nothing | scene f | resized size => rfl

theorem edits_runFrame (s : Stage α) (p : Performer α) : s.Edits p.key (s.runFrame p) := by
  cases draws : p.animator.draws (s.isAttached p.animator.surface) with
  | true =>
      rw [runFrame_of_draws draws]
      exact ⟨(·.drawn (s.queue.last + 1)), fun _ => rfl, rfl⟩
  | false =>
      rw [runFrame_of_not_draws draws]
      exact ⟨Animator.skipped, fun _ => rfl, rfl⟩

theorem stems_fire (s : Stage α) (key : Nat) : (s.fire key).Stems s := by
  unfold fire
  split
  next p _ => exact (edits_runFrame s p).stems
  next => exact .of_subset (List.Subset.refl _)

theorem stems_fireAll (s : Stage α) (keys : List Nat) : (keys.foldl fire s).Stems s := by
  induction keys generalizing s with
  | nil => exact .of_subset (List.Subset.refl _)
  | cons key keys ih => exact (ih (s.fire key)).trans (stems_fire s key)

theorem stems_tick (s : Stage α) (time : Float) : (s.tick time).2.Stems s :=
  (stems_fireAll _ _).trans (stems_beginTick s time)

theorem stems_dropPerformer (s : Stage α) (p : Performer α) :
    ∀ o' ∈ (s.dropPerformer p).performers, o'.key ≠ p.key ∧ ∃ o ∈ s.performers, o.Becomes o' := by
  intro o' member
  obtain ⟨left, different⟩ := List.mem_filter.mp member
  exact ⟨by simpa using different, (edits_destroyPerformer s p).stems o' left⟩

theorem mem_dropPerformer {o : Performer α} (member : p ∈ s.performers) (different : p.key ≠ o.key) :
    p ∈ (s.dropPerformer o).performers :=
  List.mem_filter.mpr ⟨(edits_destroyPerformer s o).mem member different, by simpa using different⟩

theorem surfaces_add (s : Stage α) (name : String) (animator : Animator α) (isStarted : Bool) :
    (s.add name animator isStarted).surfaces = s.surfaces := by
  have entered := surfaces_entered s name animator isStarted
  rw [add_eq]
  cases s.performer? name with
  | none => exact entered
  | some old => exact (surfaces_destroyPerformer _ old).trans entered

theorem mem_add (member : p ∈ (s.entered name animator isStarted).performers)
    (different : ∀ old, s.performer? name = some old → p.key ≠ old.key) :
    p ∈ (s.add name animator isStarted).performers := by
  rw [add_eq]
  cases found : s.performer? name with
  | none => exact member
  | some old => exact mem_dropPerformer member (different old found)

theorem Orderly.mem_add (h : s.Orderly due) (member : p ∈ s.performers) {name : String}
    (keeps : name ≠ p.name) (animator : Animator α) (isStarted : Bool) :
    p ∈ (s.add name animator isStarted).performers := by
  refine Stage.mem_add (h.mem_entered member name animator isStarted) ?_
  intro old found
  obtain ⟨there, rfl⟩ := mem_of_performer? found
  exact h.key_ne_of_name there member keeps

theorem stems_add {p' : Performer α} (member : p' ∈ (s.add name animator isStarted).performers) :
    (∃ p ∈ s.performers, p.Becomes p' ∧ ∀ old, s.performer? name = some old → p.key ≠ old.key) ∨
      (s.newcomer name animator).Becomes p' := by
  obtain ⟨o, old, becomes, remains⟩ : ∃ o ∈ (s.enter name animator).performers, o.Becomes p' ∧
      ∀ old, s.performer? name = some old → o.key ≠ old.key := by
    have entered := stems_entered s name animator isStarted
    rw [add_eq] at member
    cases found : s.performer? name with
    | none =>
        rw [found] at member
        obtain ⟨o, old, becomes⟩ := entered p' member
        exact ⟨o, old, becomes, by simp⟩
    | some replaced =>
        rw [found] at member
        obtain ⟨different, p, left, becomes'⟩ := stems_dropPerformer _ _ p' member
        obtain ⟨o, old, becomes⟩ := entered p left
        refine ⟨o, old, becomes.trans becomes', ?_⟩
        rintro _ ⟨⟩
        rwa [(becomes.trans becomes').key]
  rcases mem_enter.mp old with there | rfl
  · exact .inl ⟨o, there, becomes, remains⟩
  · exact .inr becomes

theorem NamesApart.add (h : s.NamesApart) : (s.add name animator isStarted).NamesApart := by
  -- One that has the name of the new one has just been replaced.
  have gone (p : Performer α) (member : p ∈ s.performers)
      (remains : ∀ old, s.performer? name = some old → p.key ≠ old.key) : p.name ≠ name := by
    rintro rfl
    obtain ⟨old, found⟩ := exists_performer? member
    obtain ⟨there, same⟩ := mem_of_performer? found
    exact remains old found (h p member old there same.symm)
  intro a' ha b' hb same
  rcases stems_add ha with ⟨a, oldA, becomesA, remainsA⟩ | newA
  · rcases stems_add hb with ⟨b, oldB, becomesB, -⟩ | newB
    · rw [← becomesA.key, ← becomesB.key]
      exact h a oldA b oldB (by rw [becomesA.name, becomesB.name, same])
    · exact absurd (by rw [becomesA.name, same, ← newB.name]; rfl) (gone a oldA remainsA)
  · rcases stems_add hb with ⟨b, oldB, becomesB, remainsB⟩ | newB
    · exact absurd (by rw [becomesB.name, ← same, ← newA.name]; rfl) (gone b oldB remainsB)
    · rw [← newA.key, ← newB.key]

theorem NamesApart.outcome (h : s.NamesApart) {operation : Operation α}
    (outcome : s.Outcome operation s') : s'.NamesApart := by
  cases outcome with
  | nothing => exact h
  | mounted name id build scene size => exact h.add
  | mountedStopped name id build scene size => exact h.add
  | performed p member request => exact h.stems (edits_perform s p request).stems
  | dropped p member => exact h.stems fun o member => (stems_dropPerformer s p o member).2
  | recorded operation id f => exact h.stems (stems_modifyRecorder s id f)
  | ticked time => exact h.stems (stems_tick s time)

theorem NamesApart.operate (h : s.NamesApart) (operation : Operation α) :
    (s.operate operation).NamesApart :=
  h.outcome (s.outcome_operate operation)

theorem NamesApart.play (h : s.NamesApart) (operations : List (Operation α)) :
    (s.play operations).NamesApart := by
  induction operations generalizing s with
  | nil => exact h
  | cons operation operations ih => exact ih (h.operate operation)

end Stage
end AnimatedCanvas
