import AnimatedCanvas.Proofs.Stage.Turns

/-!
# A destroyed animator stays as it is

Whatever follows, also in the midst of a tick that has taken its request, a destroyed animator remains
word for word what destroying made of it: no operation reaches it, and firing its request changes
nothing on the whole stage (`destroyed_for_good`).
-/

namespace AnimatedCanvas

variable {α : Type}

namespace Animator

variable [Scene α] {a : Animator α}

def Cleared (a : Animator α) : Prop :=
  a.isDestroyed = true → ∃ scene : α, a.scene = Scene.clear scene

theorem cleared_of_alive (h : a.isDestroyed = false) : a.Cleared := by
  intro destroyed
  simp [h] at destroyed

theorem Cleared.destroy (h : a.Cleared) : a.destroy.Cleared := by
  unfold Animator.destroy
  split
  · exact h
  · exact fun _ => ⟨a.scene, rfl⟩

theorem Cleared.withScene (h : a.Cleared) (f : α → α) : (a.withScene f).Cleared := by
  unfold Animator.withScene
  split
  · exact h
  next alive => exact cleared_of_alive (by simpa using alive)

theorem Cleared.resize (h : a.Cleared) (size : Size) : (a.resize size).Cleared := by
  unfold Animator.resize
  split
  · exact h
  next alive => exact cleared_of_alive (by simpa using alive)

end Animator

namespace Stage

variable {s s' : Stage α} {p : Performer α} {due : List Nat}

/-! ## Nothing reaches a destroyed animator -/

theorem Orderly.modify_eq_self (h : s.Orderly due) (member : p ∈ s.performers)
    {f : Animator α → Animator α} (fixed : f p.animator = p.animator) : s.modify p.key f = s := by
  have same : s.performers.map (·.changed p.key f) = s.performers := by
    conv_rhs => rw [← List.map_id s.performers]
    apply List.map_congr_left
    intro o there
    by_cases own : o.key = p.key
    · rw [h.eq_of_key there member own, Performer.changed_self, fixed]
      rfl
    · exact Performer.changed_of_ne own f
  change { s with performers := s.performers.map (·.changed p.key f) } = s
  rw [same]

variable [Scene α]

theorem Orderly.perform_destroyed (h : s.Orderly due) (member : p ∈ s.performers)
    (destroyed : p.animator.isDestroyed = true) (request : Request) : s.perform p request = s := by
  have deaf (f : α → α) : s.modify p.key (·.withScene f) = s :=
    h.modify_eq_self member (Animator.withScene_of_destroyed destroyed f)
  cases request with
  | start => exact startPerformer_of_not_canStart (by simp [Animator.canStart, destroyed])
  | destroy =>
      have pending := ((h.standing p member).stopped_of_destroyed destroyed).2
      simp only [Stage.perform]
      rw [destroyPerformer_of_stopped pending]
      exact h.modify_eq_self member (Animator.destroy_of_destroyed destroyed)
  | pointerMove position => exact deaf _
  | pointerLeave => exact deaf _
  | click position => exact deaf _
  | resize =>
      simp only [Stage.perform]
      split
      next recorder _ =>
        exact h.modify_eq_self member (Animator.resize_of_destroyed destroyed recorder.layout)
      next => rfl

theorem Orderly.fire_destroyed (h : s.Orderly due) (member : p ∈ s.performers)
    (destroyed : p.animator.isDestroyed = true) : s.fire p.key = s := by
  obtain ⟨still, pending⟩ := (h.standing p member).stopped_of_destroyed destroyed
  have found : s.performerOf? p.key = some p := h.performerOf?_eq_some.mpr ⟨member, rfl⟩
  simp only [Stage.fire, found]
  rw [runFrame_of_not_draws (by simp [Animator.draws, destroyed])]
  apply h.modify_eq_self member
  rw [Animator.skipped, ← still, ← pending]

/-! ## Whoever is destroyed has been cleared -/

def Cleared (s : Stage α) : Prop := ∀ p ∈ s.performers, p.animator.Cleared

theorem cleared_withSurfaces (surfaces : List (String × Option Recorder)) :
    (withSurfaces surfaces : Stage α).Cleared := by
  intro p absent
  cases absent

theorem Cleared.change (h : s.Cleared) {key : Nat} {f : Animator α → Animator α}
    (kept : ∀ p ∈ s.performers, p.key = key → (f p.animator).Cleared)
    (performers : s'.performers = (s.modify key f).performers) : s'.Cleared := by
  intro p' member
  rw [performers, mem_modify] at member
  obtain ⟨p, old, rfl⟩ := member
  by_cases own : p.key = key
  · subst own
    rw [Performer.changed_self]
    exact kept p old rfl
  · rw [Performer.changed_of_ne own]
    exact h p old

theorem Cleared.startPerformer (h : s.Cleared) (p : Performer α) : (s.startPerformer p).Cleared := by
  cases start : p.animator.canStart with
  | true =>
      rw [startPerformer_of_canStart start]
      exact h.change (f := (·.start (s.queue.last + 1))) (fun o member _ => h o member) rfl
  | false =>
      rw [startPerformer_of_not_canStart start]
      exact h

theorem Cleared.destroyPerformer (h : s.Cleared) (p : Performer α) :
    (s.destroyPerformer p).Cleared :=
  h.change (fun o member _ => (h o member).destroy) (performers_destroyPerformer s p)

theorem Cleared.dropPerformer (h : s.Cleared) (p : Performer α) : (s.dropPerformer p).Cleared :=
  fun o member => h.destroyPerformer p o (List.mem_of_mem_filter member)

theorem Cleared.add (h : s.Cleared) (name : String) {animator : Animator α}
    (alive : animator.isDestroyed = false) (isStarted : Bool) :
    (s.add name animator isStarted).Cleared := by
  have enter : (s.enter name animator).Cleared := by
    intro o member
    rcases mem_enter.mp member with old | rfl
    · exact h o old
    · exact Animator.cleared_of_alive alive
  have entered : (s.entered name animator isStarted).Cleared := by
    cases isStarted with
    | true => exact enter.startPerformer _
    | false => exact enter
  rw [add_eq]
  cases s.performer? name with
  | none => exact entered
  | some old => exact entered.dropPerformer old

theorem Cleared.perform (h : s.Cleared) (p : Performer α) (request : Request) :
    (s.perform p request).Cleared := by
  have answer := s.answer_perform p request
  generalize s.perform p request = s' at answer ⊢
  cases answer with
  | nothing => exact h
  | started => exact h.startPerformer p
  | destroyed => exact h.destroyPerformer p
  | scene f => exact h.change (fun o member _ => (h o member).withScene f) rfl
  | resized size => exact h.change (fun o member _ => (h o member).resize size) rfl

theorem Cleared.runFrame (h : s.Cleared) (orderly : s.Orderly due) (member : p ∈ s.performers) :
    (s.runFrame p).Cleared := by
  cases draws : p.animator.draws (s.isAttached p.animator.surface) with
  | true =>
      obtain ⟨⟨alive, -⟩, -⟩ := Animator.draws_eq_true.mp draws
      rw [runFrame_of_draws draws]
      refine h.change (f := (·.drawn (s.queue.last + 1))) (fun o there own => ?_) rfl
      rw [orderly.eq_of_key there member own]
      exact Animator.cleared_of_alive alive
  | false =>
      rw [runFrame_of_not_draws draws]
      exact h.change (f := Animator.skipped) (fun o there _ => h o there) rfl

theorem Cleared.fire (h : s.Cleared) (orderly : s.Orderly due) (key : Nat) :
    (s.fire key).Cleared := by
  cases found : s.performerOf? key with
  | none =>
      simp only [Stage.fire, found]
      exact h
  | some o =>
      simp only [Stage.fire, found]
      exact h.runFrame orderly (orderly.performerOf?_eq_some.mp found).1

theorem Cleared.fireAll {keys : List Nat} (h : s.Cleared) (orderly : s.Orderly (keys ++ due)) :
    (keys.foldl Stage.fire s).Cleared := by
  induction keys generalizing s with
  | nil => exact h
  | cons key keys ih => exact ih (h.fire orderly key) orderly.fire

theorem Cleared.outcome (h : s.Cleared) (orderly : s.Orderly due) {operation : Operation α}
    (outcome : s.Outcome operation s') : s'.Cleared := by
  cases outcome with
  | nothing => exact h
  | mounted name id build scene size => exact h.add name rfl true
  | mountedStopped name id build scene size => exact h.add name rfl false
  | performed p member request => exact h.perform p request
  | dropped p member => exact h.dropPerformer p
  | recorded operation id f => exact h
  | ticked time => exact Cleared.fireAll (s := (s.beginTick time).2) h (orderly.beginTick time)

end Stage

/-! ## Whole histories -/

def ParticleField.IsEmpty {γ : Type} (f : ParticleField γ) : Prop :=
  f.particles = [] ∧ f.waves = [] ∧ f.pointer = none

def CircuitDiagram.IsEmpty {γ : Type} (d : CircuitDiagram γ) : Prop :=
  d.events = [] ∧ d.sweep = 0.0

def Animation.IsEmpty {γ : Type} : Animation γ → Prop
  | .field f => f.IsEmpty
  | .circuit d => d.IsEmpty

theorem Animation.isEmpty_clear {γ : Type} [Sampler γ] (a : Animation γ) :
    (Scene.clear a).IsEmpty := by
  cases a with
  | field f => exact ⟨rfl, rfl, rfl⟩
  | circuit d => exact ⟨rfl, rfl⟩

theorem Solo.step_destroyed [Scene α] {v : Solo α} (destroyed : v.isDestroyed = true)
    (still : v.isRunning = false) {operation : Solo.Operation} (spares : operation ≠ .drain) :
    ∃ recorder : Recorder, v.step operation = { v with recorder } ∧
      recorder.commands = v.recorder.commands := by
  cases operation with
  | ask request =>
      have deaf : v.step (.ask request) = v := by simp [Solo.step, Solo.perform, destroyed]
      exact ⟨v.recorder, deaf, rfl⟩
  | setLayout layout => exact ⟨v.recorder.setLayout layout, rfl, rfl⟩
  | detach => exact ⟨v.recorder.detach, rfl, rfl⟩
  | drain => exact absurd rfl spares
  | tick => exact ⟨v.recorder, Solo.tick_of_still still, rfl⟩

namespace Ticking

variable [Scene α] {t : Ticking α} {p : Performer α}

theorem cleared_step (h : t.stage.Cleared) (orderly : t.stage.Orderly t.due) (moment : Moment α) :
    (t.step moment).stage.Cleared := by
  cases moment with
  | operate operation => exact h.outcome orderly (t.stage.outcome_operate operation)
  | take time => exact h
  | fire =>
      obtain ⟨s, due⟩ := t
      cases due with
      | nil => exact h
      | cons key due => exact h.fire orderly key

theorem cleared_run (h : t.stage.Cleared) (orderly : t.stage.Orderly t.due)
    (moments : List (Moment α)) : (t.run moments).stage.Cleared := by
  induction moments generalizing t with
  | nil => exact h
  | cons moment moments ih => exact ih (cleared_step h orderly moment) (orderly_step orderly moment)

theorem mem_step (orderly : t.stage.Orderly t.due) (apart : t.stage.NamesApart)
    (member : p ∈ t.stage.performers) (destroyed : p.animator.isDestroyed = true)
    {moment : Moment α} (keeps : moment.Keeps p.name) : p ∈ (t.step moment).stage.performers := by
  by_cases own : moment = .operate (.ask p.name .resize)
  · subst own
    have found := (apart.performer?_eq_some orderly).mpr ⟨member, rfl⟩
    change p ∈ (t.stage.operate (.ask p.name .resize)).performers
    rw [Stage.operate_ask found, orderly.perform_destroyed member destroyed]
    exact member
  · obtain ⟨p', member', becomes, turns⟩ := holds_step orderly member keeps own
    obtain ⟨still, pending⟩ := (orderly.standing p member).stopped_of_destroyed destroyed
    have same := Animator.eq_of_turns turns destroyed still pending
    rwa [becomes.eq_of_animator same] at member'

theorem mem_run (orderly : t.stage.Orderly t.due) (apart : t.stage.NamesApart)
    (member : p ∈ t.stage.performers) (destroyed : p.animator.isDestroyed = true)
    {moments : List (Moment α)} (keeps : ∀ moment ∈ moments, moment.Keeps p.name) :
    p ∈ (t.run moments).stage.performers := by
  induction moments generalizing t with
  | nil => exact member
  | cons moment moments ih =>
      obtain ⟨now, later⟩ := List.forall_mem_cons.mp keeps
      exact ih (orderly_step orderly moment) (namesApart_step apart moment)
        (mem_step orderly apart member destroyed now) later

/-- An animator has been destroyed, and its surface shows certain commands. -/
def Silent (t : Ticking α) (name : String) (key : Nat) (id : String) (commands : List DrawCommand) :
    Prop :=
  ∃ v : Solo α, t.stage.Shows name key id v ∧ v.isDestroyed = true ∧ v.isRunning = false ∧
    v.recorder.commands = commands

variable {name id : String} {key : Nat} {commands : List DrawCommand}

theorem Silent.step (h : t.Silent name key id commands) (orderly : t.stage.Orderly t.due)
    {moment : Moment α} (keeps : moment.Keeps name) (avoids : moment.Avoids id)
    (spares : moment.Spares id) : (t.step moment).Silent name key id commands := by
  obtain ⟨v, shows', destroyed, still, logged⟩ := h
  cases moment with
  | operate operation =>
      have after := shows'.operate orderly (fun _ => still) keeps avoids
      -- What means something to the animator is one of its own steps, and none of these draws.
      cases means : operation.solo? name id with
      | none =>
          rw [means] at after
          exact ⟨v, after, destroyed, still, logged⟩
      | some own =>
          have quiet : own ≠ .drain := by
            rintro rfl
            cases operation <;> simp_all [Stage.Operation.solo?, Moment.Spares]
          obtain ⟨recorder, stepped, same⟩ := Solo.step_destroyed destroyed still quiet
          rw [means, Option.toList_some, Solo.run, List.foldl_cons, List.foldl_nil, stepped] at after
          exact ⟨_, after, destroyed, still, same.trans logged⟩
  | take time => exact ⟨v, shows'.beginTick time, destroyed, still, logged⟩
  | fire =>
      obtain ⟨s, due⟩ := t
      cases due with
      | nil => exact ⟨v, shows', destroyed, still, logged⟩
      | cons first due =>
          refine ⟨v, ?_, destroyed, still, logged⟩
          by_cases own : key = first
          · subst own
            have fired := shows'.fire_own orderly
            rwa [Solo.tick_of_still still] at fired
          · exact shows'.fire_other orderly own

theorem Silent.run (h : t.Silent name key id commands) (orderly : t.stage.Orderly t.due)
    {moments : List (Moment α)}
    (others : ∀ moment ∈ moments, moment.Keeps name ∧ moment.Avoids id ∧ moment.Spares id) :
    (t.run moments).Silent name key id commands := by
  induction moments generalizing t with
  | nil => exact h
  | cons moment moments ih =>
      obtain ⟨⟨keeps, avoids, spares⟩, later⟩ := List.forall_mem_cons.mp others
      exact ih (h.step orderly keeps avoids spares) (orderly_step orderly moment) later

end Ticking

/-! ## The destroyed animator -/

structure Performer.Remains {γ : Type} (q p : Performer (Animation γ)) : Prop where
  key : q.key = p.key
  name : q.name = p.name
  surface : q.animator.surface = p.animator.surface
  size : q.animator.size = p.animator.size
  frames : q.animator.frames = p.animator.frames
  destroyed : q.animator.isDestroyed = true
  still : q.animator.isRunning = false
  pending : q.animator.pending = none
  empty : q.animator.scene.IsEmpty

def Performer.destroy [Scene α] (p : Performer α) : Performer α :=
  { p with animator := p.animator.destroy }

namespace Ticking

section

variable [Scene α] {t : Ticking α} {p : Performer α}

theorem mem_step_destroy (found : t.stage.performer? p.name = some p) :
    p.destroy ∈ (t.step (.operate (.ask p.name .destroy))).stage.performers := by
  change p.destroy ∈ (t.stage.operate (.ask p.name .destroy)).performers
  rw [Stage.operate_ask found, Stage.perform, Stage.performers_destroyPerformer]
  exact Stage.mem_modify_self (Stage.mem_of_performer? found).1 Animator.destroy

theorem silent_step_destroy {recorder : Recorder} (plays : t.stage.Plays p recorder)
    (orderly : t.stage.Orderly t.due) : (t.step (.operate (.ask p.name .destroy))).Silent p.name p.key
      p.animator.surface recorder.commands := by
  have shown := plays.perform_own .destroy
  rw [← Stage.solo_destroy] at shown
  refine ⟨p.animator.destroy.solo recorder, ?_, p.animator.isDestroyed_destroy,
    (orderly.standing p plays.member).isRunning_destroy, rfl⟩
  change (t.stage.operate (.ask p.name .destroy)).Shows _ _ _ _
  rw [Stage.operate_ask (plays.performer? orderly)]
  exact shown

end

variable {γ : Type} [Sampler γ]

theorem remains_destroy {t : Ticking (Animation γ)} {p : Performer (Animation γ)}
    (orderly : t.stage.Orderly t.due) (cleared : t.stage.Cleared)
    (found : t.stage.performer? p.name = some p) : p.destroy.Remains p := by
  have there := mem_step_destroy found
  have gone : p.destroy.animator.isDestroyed = true := p.animator.isDestroyed_destroy
  have orderly' := orderly_step orderly (.operate (.ask p.name .destroy))
  obtain ⟨still, pending⟩ := (orderly'.standing _ there).stopped_of_destroyed gone
  obtain ⟨scene, emptied⟩ := cleared_step cleared orderly _ _ there gone
  refine ⟨rfl, rfl, p.animator.surface_destroy, p.animator.size_destroy, p.animator.frames_destroy,
    gone, still, pending, ?_⟩
  rw [emptied]
  exact Animation.isEmpty_clear scene

/-- What destroying has left of an animator is there for good. Nothing asked of it and no frame has
any effect, and nothing is drawn on its surface any more if the surface is its own. -/
theorem destroyed_for_good (surfaces : List (String × Option Recorder))
    (before : List (Moment (Animation γ))) (name : String) (p : Performer (Animation γ)) :
    let t := (start surfaces).run before
    t.stage.performer? name = some p →
    ∃ q : Performer (Animation γ), q.Remains p ∧
      ∀ after : List (Moment (Animation γ)), (∀ moment ∈ after, moment.Keeps name) →
        let later := (t.step (.operate (.ask name .destroy))).run after
        later.stage.performer? name = some q ∧ later.stage.queue.requestsOf q.key = [] ∧
        later.stage.fire q.key = later.stage ∧
        (∀ request, later.stage.operate (.ask name request) = later.stage) ∧
        ((∀ o ∈ t.stage.performers, o.animator.surface = p.animator.surface → o.key = p.key) →
          (∀ moment ∈ after, moment.Avoids p.animator.surface ∧ moment.Spares p.animator.surface) →
          ∀ recorder, t.stage.recorder? p.animator.surface = some recorder →
            ∃ recorder', later.stage.recorder? p.animator.surface = some recorder' ∧
              recorder'.commands = recorder.commands) := by
  intro t found
  have orderly : t.stage.Orderly t.due := orderly_run (Stage.orderly_withSurfaces surfaces) before
  have apart : t.stage.NamesApart := namesApart_run (Stage.namesApart_withSurfaces surfaces) before
  have cleared : t.stage.Cleared :=
    cleared_run (Stage.cleared_withSurfaces surfaces) (Stage.orderly_withSurfaces surfaces) before
  obtain ⟨member, rfl⟩ := Stage.mem_of_performer? found
  have remains := remains_destroy orderly cleared found
  refine ⟨p.destroy, remains, fun after keeps => ?_⟩
  intro later
  have orderly' := orderly_step orderly (.operate (.ask p.name .destroy))
  have apart' := namesApart_step apart (.operate (.ask p.name .destroy))
  have settled : later.stage.Orderly later.due := orderly_run orderly' after
  have there : p.destroy ∈ later.stage.performers :=
    mem_run orderly' apart' (mem_step_destroy found) remains.destroyed keeps
  have named : later.stage.performer? p.destroy.name = some p.destroy :=
    ((namesApart_run apart' after).performer?_eq_some settled).mpr ⟨there, rfl⟩
  refine ⟨named, (settled.standing _ there).requestsOf_eq_nil remains.still,
    settled.fire_destroyed there remains.destroyed, ?_, ?_⟩
  · intro request
    rw [show p.name = p.destroy.name from rfl, Stage.operate_ask named]
    exact settled.perform_destroyed there remains.destroyed request
  · intro alone quiet recorder surface
    have plays : t.stage.Plays p recorder :=
      ⟨member, fun o other same => apart o other p member same, alone, surface⟩
    obtain ⟨v, ⟨o, recorder', others, -, -, onto, rfl⟩, -, -, logged⟩ :=
      (silent_step_destroy plays orderly).run orderly' fun moment inside =>
        ⟨keeps moment inside, quiet moment inside⟩
    exact ⟨recorder', onto ▸ others.surface, logged⟩

theorem destroyed_for_good_right :
    let build (size : Size) := (Stage.blankDiagram size).map Animation.circuit
    let t : Ticking (Animation Generator) := (start [("left", some (.create ⟨200.0, 100.0⟩)),
      ("right", some (.create ⟨80.0, 60.0⟩))]).run
        [.operate (.mount "a" "left" build), .operate (.mount "b" "right" build), .take 16.0, .fire]
    let after : List (Moment (Animation Generator)) :=
      [.fire, .operate (.ask "b" .start), .operate (.tick 32.0)]
    let later := (t.step (.operate (.ask "b" .destroy))).run after
    t.due = [2] ∧ ∃ p q : Performer (Animation Generator), t.stage.performer? "b" = some p ∧
      q.Remains p ∧ later.stage.performer? "b" = some q ∧ later.stage.fire q.key = later.stage ∧
      ∀ recorder, t.stage.recorder? p.animator.surface = some recorder →
        ∃ recorder', later.stage.recorder? p.animator.surface = some recorder' ∧
          recorder'.commands = recorder.commands := by
  intro build t after later
  obtain ⟨p, found, key, surface⟩ : ∃ p, t.stage.performer? "b" = some p ∧ p.key = 2 ∧
      p.animator.surface = "right" := ⟨_, rfl, rfl, rfl⟩
  obtain ⟨q, remains, lasting⟩ := destroyed_for_good _ _ "b" p found
  have kept : ∀ moment ∈ after, moment.Keeps "b" := by
    simp [after, Moment.Keeps, Stage.Operation.Keeps]
  have quiet : ∀ moment ∈ after, moment.Avoids p.animator.surface ∧
      moment.Spares p.animator.surface := by
    simp [after, Moment.Avoids, Moment.Spares, Stage.Operation.Avoids]
  have alone : ∀ o ∈ t.stage.performers, o.animator.surface = p.animator.surface → o.key = p.key := by
    intro o member onto
    have places : t.stage.performers.map (fun o => (o.animator.surface, o.key)) =
        [("left", 1), ("right", 2)] := rfl
    have there := List.mem_map_of_mem (f := fun o => (o.animator.surface, o.key)) member
    rw [places, onto, surface] at there
    simpa [key] using there
  obtain ⟨named, -, fired, -, drawn⟩ := lasting after kept
  exact ⟨rfl, p, q, found, remains, named, fired, drawn alone quiet⟩

end Ticking
end AnimatedCanvas
