import AnimatedCanvas.Field.Frame
import AnimatedCanvas.Field.Stats
import AnimatedCanvas.Proofs.Field.Choices
import AnimatedCanvas.Random.Generator

namespace AnimatedCanvas.ParticleField

inductive Event where
  | call (call : Call)
  | render

def Event.isPointed : Event → Bool
  | .call (.operation (.pointerMove _)) => true
  | .call (.operation .pointerLeave) => true
  | .call (.operation (.click _)) => true
  | _ => false

def unpointed (events : List Event) : List Event := events.filter fun event => !event.isPointed

section Events

variable {γ : Type} [Sampler γ] [Trigonometry]

def after (f : ParticleField γ) : Event → ParticleField γ
  | .call call => f.call call
  | .render => f

def afterAll (f : ParticleField γ) (events : List Event) : ParticleField γ := events.foldl after f

def pictures (f : ParticleField γ) : Event → List (List DrawCommand)
  | .render => [f.render]
  | .call _ => []

def replies (f : ParticleField γ) : Event → List Bool
  | .call (.operation (.pointerMove position)) => [(f.pointerMove position).1]
  | _ => []

def throughout {α : Type} (view : ParticleField γ → Event → List α) (f : ParticleField γ) :
    List Event → List α
  | [] => []
  | now :: later => view f now ++ throughout view (f.after now) later

structure Inert (f : ParticleField γ) : Prop where
  interactive : f.config.interactive = false
  pointer : f.pointer = none

variable {f : ParticleField γ}

omit [Trigonometry] in
theorem Inert.pointerMove (h : f.Inert) (position : Point) : f.pointerMove position = (false, f) := by
  simp [ParticleField.pointerMove, h.interactive]

omit [Sampler γ] [Trigonometry] in
theorem Inert.pointerLeave (h : f.Inert) : f.pointerLeave = f := by
  rw [ParticleField.pointerLeave, ← h.pointer]

theorem Inert.click (h : f.Inert) (position : Point) : f.click position = f := by
  simp [ParticleField.click, h.interactive]

theorem Inert.after_of_isPointed (h : f.Inert) {event : Event} (pointed : event.isPointed = true) :
    f.after event = f := by
  match event with
  | .call (.operation (.pointerMove position)) => exact congrArg Prod.snd (h.pointerMove position)
  | .call (.operation .pointerLeave) => exact h.pointerLeave
  | .call (.operation (.click position)) => exact h.click position

theorem Inert.after (h : f.Inert) (event : Event) : (f.after event).Inert := by
  cases pointed : event.isPointed with
  | true => rwa [h.after_of_isPointed pointed]
  | false =>
      match event with
      | .render => exact h
      | .call .populate => exact ⟨h.interactive, h.pointer⟩
      | .call (.spawnWave center) => exact ⟨h.interactive, h.pointer⟩
      | .call (.spawnBurst source) => exact ⟨h.interactive, h.pointer⟩
      | .call (.operation .update) => exact ⟨h.interactive, h.pointer⟩
      | .call (.operation (.resize size)) => exact ⟨h.interactive, h.pointer⟩
      | .call (.operation .clear) => exact ⟨h.interactive, rfl⟩

theorem Inert.afterAll_unpointed (h : f.Inert) (events : List Event) :
    f.afterAll (unpointed events) = f.afterAll events := by
  induction events generalizing f with
  | nil => rfl
  | cons now later ih =>
      cases pointed : now.isPointed with
      | true =>
          rw [unpointed, List.filter_cons_of_neg (by simp [pointed]), ← unpointed, ih h]
          exact congrArg (ParticleField.afterAll · later) (h.after_of_isPointed pointed).symm
      | false =>
          rw [unpointed, List.filter_cons_of_pos (by simp [pointed])]
          exact ih (h.after now)

theorem Inert.throughout_unpointed {α : Type} {view : ParticleField γ → Event → List α}
    (hidden : ∀ f event, event.isPointed = true → view f event = []) (h : f.Inert)
    (events : List Event) : f.throughout view (unpointed events) = f.throughout view events := by
  induction events generalizing f with
  | nil => rfl
  | cons now later ih =>
      cases pointed : now.isPointed with
      | true =>
          rw [unpointed, List.filter_cons_of_neg (by simp [pointed]), ← unpointed, ih h, throughout,
            hidden f now pointed, h.after_of_isPointed pointed, List.nil_append]
      | false =>
          rw [unpointed, List.filter_cons_of_pos (by simp [pointed]), throughout, throughout]
          exact congrArg (view f now ++ ·) (ih (h.after now))

omit [Sampler γ] [Trigonometry] in
theorem pictures_of_isPointed (f : ParticleField γ) (event : Event) (pointed : event.isPointed = true) :
    f.pictures event = [] := by
  cases event with
  | render => cases pointed
  | call call => rfl

omit [Trigonometry] in
theorem Inert.eq_false_of_mem_replies (h : f.Inert) {event : Event} :
    ∀ reply ∈ f.replies event, reply = false := by
  unfold replies
  split
  next position => simp [h.pointerMove]
  next => exact List.forall_mem_nil _

theorem Inert.eq_false_of_mem_throughout (h : f.Inert) (events : List Event) :
    ∀ reply ∈ f.throughout replies events, reply = false := by
  induction events generalizing f with
  | nil => exact List.forall_mem_nil _
  | cons now later ih =>
      exact List.forall_mem_append.mpr ⟨h.eq_false_of_mem_replies, ih (h.after now)⟩

omit [Trigonometry] in
theorem inert_create {config : FieldConfig} (valid : config.validate = .ok ())
    (still : config.interactive = false) (size : Size) (random : γ) :
    ∃ start, create config size random = .ok start ∧ start.Inert :=
  ⟨_, create_of_valid valid size random, still, rfl⟩

/-- Without the events of the pointer, a field that is not interactive comes to the same state by the
same frames; with them, no move leaves a wave behind. -/
theorem pointer_ignored (config : FieldConfig) (size : Size) (random : γ) (events : List Event)
    (valid : config.validate = .ok ()) (still : config.interactive = false) :
    ∃ start, create config size random = .ok start ∧
      start.afterAll (unpointed events) = start.afterAll events ∧
      (start.afterAll (unpointed events)).stats = (start.afterAll events).stats ∧
      start.throughout pictures (unpointed events) = start.throughout pictures events ∧
      ∀ reply ∈ start.throughout replies events, reply = false := by
  obtain ⟨start, created, inert⟩ := inert_create valid still size random
  have same := inert.afterAll_unpointed events
  exact ⟨start, created, same, congrArg stats same,
    inert.throughout_unpointed pictures_of_isPointed events, inert.eq_false_of_mem_throughout events⟩

end Events

theorem pointer_ignored_quantum :
    let events : List Event :=
      [.call (.operation (.pointerMove ⟨10.0, 20.0⟩)), .call (.operation .update), .render,
        .call (.operation (.click ⟨0.0 / 0.0, 5.0⟩)), .call (.operation (.resize ⟨80.0, 60.0⟩)),
        .call (.operation .pointerLeave), .render]
    ({ interactive := false } : FieldConfig).validate = .ok () ∧
      ({ interactive := false } : FieldConfig).interactive = false ∧
      ∃ start, create { interactive := false } ⟨400.0, 300.0⟩ (Generator.ofSeed 1) = .ok start ∧
        start.afterAll [.call (.operation .update), .render,
          .call (.operation (.resize ⟨80.0, 60.0⟩)), .render] = start.afterAll events ∧
        (start.throughout pictures events).length = 2 ∧
        start.throughout replies events = [false] := by
  intro events
  have valid : ({ interactive := false } : FieldConfig).validate = .ok () := rfl
  obtain ⟨start, created, same, -, -, quiet⟩ :=
    pointer_ignored { interactive := false } ⟨400.0, 300.0⟩ (Generator.ofSeed 1) events valid rfl
  have answered : start.throughout replies events = [(start.pointerMove ⟨10.0, 20.0⟩).1] := rfl
  have left : (start.pointerMove ⟨10.0, 20.0⟩).1 = false :=
    quiet _ (answered ▸ List.mem_singleton_self _)
  exact ⟨valid, rfl, start, created, same, rfl, answered.trans (congrArg (List.cons · []) left)⟩

end AnimatedCanvas.ParticleField
