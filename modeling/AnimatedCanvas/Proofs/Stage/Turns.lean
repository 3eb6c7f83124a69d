import AnimatedCanvas.Proofs.Stage.Ticking
import Mathlib.Logic.Relation

namespace AnimatedCanvas

open Relation (ReflTransGen)

variable {α : Type} [Scene α]

namespace Animator

inductive Turn : Animator α → Animator α → Prop
  | start {a : Animator α} (handle : Nat) (idle : a.canStart = true) : Turn a (a.start handle)
  | destroy {a : Animator α} : Turn a a.destroy
  | pointerMove {a : Animator α} (position : Point) : Turn a (a.pointerMove position)
  | pointerLeave {a : Animator α} : Turn a a.pointerLeave
  | click {a : Animator α} (position : Point) : Turn a (a.click position)
  | drawn {a : Animator α} (handle : Nat) (alive : a.isDestroyed = false)
      (running : a.isRunning = true) : Turn a (a.drawn handle)
  | skipped {a : Animator α} : Turn a a.skipped

theorem Turn.surface {a a' : Animator α} (h : a.Turn a') : a'.surface = a.surface := by
  cases h with
  | start handle idle => rfl
  | destroy => exact surface_destroy a
  | pointerMove position => exact surface_withScene _ a
  | pointerLeave => exact surface_withScene _ a
  | click position => exact surface_withScene _ a
  | drawn handle alive running => rfl
  | skipped => rfl

theorem eq_of_turns {a a' : Animator α} (turns : ReflTransGen Turn a a')
    (destroyed : a.isDestroyed = true) (still : a.isRunning = false) (pending : a.pending = none) :
    a = a' := by
  induction turns with
  | refl => rfl
  | tail _ turn ih =>
      subst ih
      cases turn with
      | start handle idle => simp [canStart, destroyed] at idle
      | destroy => exact (destroy_of_destroyed destroyed).symm
      | pointerMove position => exact (withScene_of_destroyed destroyed _).symm
      | pointerLeave => exact (withScene_of_destroyed destroyed _).symm
      | click position => exact (withScene_of_destroyed destroyed _).symm
      | drawn handle alive running => simp [destroyed] at alive
      | skipped => rw [Animator.skipped, ← still, ← pending]

end Animator

namespace Stage

variable {s s' : Stage α} {p p' : Performer α} {due : List Nat}

def Holds (s : Stage α) (p : Performer α) : Prop :=
  ∃ p' ∈ s.performers, p.Becomes p' ∧ ReflTransGen Animator.Turn p.animator p'.animator

theorem Holds.of_mem (member : p ∈ s.performers) : s.Holds p := ⟨p, member, .refl p, .refl⟩

theorem Holds.trans (becomes : p.Becomes p')
    (turns : ReflTransGen Animator.Turn p.animator p'.animator) (h : s.Holds p') : s.Holds p := by
  obtain ⟨p'', member, becomes', turns'⟩ := h
  exact ⟨p'', member, becomes.trans becomes', turns.trans turns'⟩

theorem Holds.of_turn (member : p ∈ s.performers) {f : Animator α → Animator α}
    (turn : p.animator.Turn (f p.animator))
    (performers : s'.performers = (s.modify p.key f).performers) : s'.Holds p := by
  refine ⟨{ p with animator := f p.animator }, ?_, ⟨rfl, rfl, turn.surface.symm⟩, .single turn⟩
  rw [performers]
  exact mem_modify_self member f

theorem holds_startPerformer (member : p ∈ s.performers) : (s.startPerformer p).Holds p := by
  cases idle : p.animator.canStart with
  | true =>
      rw [startPerformer_of_canStart idle]
      exact .of_turn (f := (·.start (s.queue.last + 1))) member (.start _ idle) rfl
  | false =>
      rw [startPerformer_of_not_canStart idle]
      exact .of_mem member

theorem holds_perform (member : p ∈ s.performers) {request : Request} (other : request ≠ .resize) :
    (s.perform p request).Holds p := by
  cases request with
  | start => exact holds_startPerformer member
  | destroy =>
      exact .of_turn (f := Animator.destroy) member .destroy (performers_destroyPerformer s p)
  | pointerMove position =>
      exact .of_turn (f := (·.pointerMove position)) member (.pointerMove position) rfl
  | pointerLeave => exact .of_turn (f := Animator.pointerLeave) member .pointerLeave rfl
  | click position => exact .of_turn (f := (·.click position)) member (.click position) rfl
  | resize => exact absurd rfl other

theorem holds_runFrame (member : p ∈ s.performers) : (s.runFrame p).Holds p := by
  cases draws : p.animator.draws (s.isAttached p.animator.surface) with
  | true =>
      obtain ⟨⟨alive, running⟩, -⟩ := Animator.draws_eq_true.mp draws
      rw [runFrame_of_draws draws]
      exact .of_turn (f := (·.drawn (s.queue.last + 1))) member (.drawn _ alive running) rfl
  | false =>
      rw [runFrame_of_not_draws draws]
      exact .of_turn (f := Animator.skipped) member .skipped rfl

theorem Orderly.holds_fire (h : s.Orderly due) (member : p ∈ s.performers) (key : Nat) :
    (s.fire key).Holds p := by
  cases found : s.performerOf? key with
  | none =>
      simp only [Stage.fire, found]
      exact .of_mem member
  | some o =>
      obtain ⟨there, rfl⟩ := h.performerOf?_eq_some.mp found
      simp only [Stage.fire, found]
      by_cases own : p.key = o.key
      · obtain rfl := h.eq_of_key member there own
        exact holds_runFrame member
      · exact .of_mem ((edits_runFrame s o).mem member own)

theorem Orderly.holds_fireAll {keys : List Nat} (h : s.Orderly (keys ++ due))
    (member : p ∈ s.performers) : (keys.foldl Stage.fire s).Holds p := by
  induction keys generalizing s p with
  | nil => exact .of_mem member
  | cons key keys ih =>
      obtain ⟨p', member', becomes, turns⟩ := h.holds_fire member key
      exact .trans becomes turns (ih h.fire member')

theorem Orderly.holds_outcome (h : s.Orderly due) (member : p ∈ s.performers)
    {operation : Operation α} (keeps : operation.Keeps p.name)
    (other : operation ≠ .ask p.name .resize) (outcome : s.Outcome operation s') : s'.Holds p := by
  cases outcome with
  | nothing => exact .of_mem member
  | mounted name id build scene size => exact .of_mem (h.mem_add member keeps _ true)
  | mountedStopped name id build scene size => exact .of_mem (h.mem_add member keeps _ false)
  | performed o there request =>
      by_cases own : p.key = o.key
      · obtain rfl := h.eq_of_key member there own
        exact holds_perform member fun same => other (same ▸ rfl)
      · exact .of_mem ((edits_perform s o request).mem member own)
  | dropped o there => exact .of_mem (mem_dropPerformer member (h.key_ne_of_name there member keeps))
  | recorded operation id f => exact .of_mem member
  | ticked time => exact (h.beginTick time).holds_fireAll member

def Offers (s : Stage α) (id : String) : Prop := ∃ recorder, s.recorder? id = some recorder

variable {id : String}

omit [Scene α] in
theorem Offers.congr (h : s.Offers id) (surfaces : s'.surfaces = s.surfaces) : s'.Offers id := by
  obtain ⟨recorder, found⟩ := h
  exact ⟨recorder, (recorder?_congr surfaces id).trans found⟩

omit [Scene α] in
theorem Offers.modifyRecorder (h : s.Offers id) (other : String) (f : Recorder → Recorder) :
    (s.modifyRecorder other f).Offers id := by
  obtain ⟨recorder, found⟩ := h
  rw [Offers, recorder?_modifyRecorder, found]
  split
  · exact ⟨f recorder, rfl⟩
  · exact ⟨recorder, rfl⟩

theorem Offers.runFrame (h : s.Offers id) (p : Performer α) : (s.runFrame p).Offers id := by
  cases draws : p.animator.draws (s.isAttached p.animator.surface) with
  | true =>
      rw [runFrame_of_draws draws]
      exact (h.modifyRecorder p.animator.surface (·.draw p.animator.frameCommands)).congr rfl
  | false =>
      rw [runFrame_of_not_draws draws]
      exact h.congr rfl

theorem Offers.fire (h : s.Offers id) (key : Nat) : (s.fire key).Offers id := by
  unfold Stage.fire
  split
  next p _ => exact h.runFrame p
  next => exact h

theorem Offers.fireAll (h : s.Offers id) (keys : List Nat) : (keys.foldl Stage.fire s).Offers id := by
  induction keys generalizing s with
  | nil => exact h
  | cons key keys ih => exact ih (h.fire key)

theorem Offers.outcome (h : s.Offers id) {operation : Operation α}
    (outcome : s.Outcome operation s') : s'.Offers id := by
  cases outcome with
  | nothing => exact h
  | mounted name other build scene size => exact h.congr (surfaces_add s name _ true)
  | mountedStopped name other build scene size => exact h.congr (surfaces_add s name _ false)
  | performed p member request => exact h.congr (surfaces_perform s p request)
  | dropped p member => exact h.congr (surfaces_destroyPerformer s p)
  | recorded operation other f => exact h.modifyRecorder other f
  | ticked time => exact Offers.fireAll (s := (s.beginTick time).2) h _

theorem Orderly.recorder?_fire (h : s.Orderly due) (member : p ∈ s.performers) {recorder : Recorder}
    (surface : s.recorder? p.animator.surface = some recorder) :
    (s.fire p.key).recorder? p.animator.surface =
      some (if p.animator.draws recorder.isAttached then recorder.draw p.animator.frameCommands
        else recorder) := by
  have attached : s.isAttached p.animator.surface = recorder.isAttached := by
    rw [isAttached, surface, Option.any_some]
  have found : s.performerOf? p.key = some p := h.performerOf?_eq_some.mpr ⟨member, rfl⟩
  simp only [Stage.fire, found]
  cases draws : p.animator.draws recorder.isAttached with
  | true =>
      rw [runFrame_of_draws (attached ▸ draws)]
      change (s.modifyRecorder p.animator.surface _).recorder? _ = _
      rw [recorder?_modifyRecorder, if_pos rfl, surface]
      rfl
  | false =>
      rw [runFrame_of_not_draws (attached ▸ draws)]
      exact surface

end Stage

namespace Ticking

variable {t : Ticking α} {p : Performer α} {id : String}

theorem holds_step (orderly : t.stage.Orderly t.due) (member : p ∈ t.stage.performers)
    {moment : Moment α} (keeps : moment.Keeps p.name)
    (other : moment ≠ .operate (.ask p.name .resize)) : (t.step moment).stage.Holds p := by
  cases moment with
  | operate operation =>
      exact orderly.holds_outcome member keeps (fun same => other (congrArg _ same))
        (t.stage.outcome_operate operation)
  | take time => exact .of_mem member
  | fire =>
      obtain ⟨s, due⟩ := t
      cases due with
      | nil => exact .of_mem member
      | cons key due => exact orderly.holds_fire member key

theorem mem_step_resize (found : t.stage.performer? p.name = some p) {recorder : Recorder}
    (surface : t.stage.recorder? p.animator.surface = some recorder) :
    { p with animator := p.animator.resize recorder.layout } ∈
      (t.step (.operate (.ask p.name .resize))).stage.performers := by
  change _ ∈ (t.stage.operate (.ask p.name .resize)).performers
  rw [Stage.operate_ask found, Stage.perform, surface]
  exact Stage.mem_modify_self (Stage.mem_of_performer? found).1 (·.resize recorder.layout)

theorem offers_step (h : t.stage.Offers id) (moment : Moment α) : (t.step moment).stage.Offers id := by
  cases moment with
  | operate operation => exact h.outcome (t.stage.outcome_operate operation)
  | take time => exact h
  | fire =>
      obtain ⟨s, due⟩ := t
      cases due with
      | nil => exact h
      | cons key due => exact h.fire key

end Ticking
end AnimatedCanvas
