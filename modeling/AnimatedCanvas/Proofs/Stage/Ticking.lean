import AnimatedCanvas.Proofs.Stage.Independence

namespace AnimatedCanvas

structure Ticking (α : Type) where
  stage : Stage α
  /-- The keys of the requests that have been taken and not been fired. -/
  due : List Nat

inductive Moment (α : Type) where
  | operate (operation : Stage.Operation α)
  /-- A tick takes the waiting requests; they come before those that an earlier tick has left. -/
  | take (time : Float)
  /-- The first of the due requests is fired. -/
  | fire

namespace Moment

variable {α : Type}

def Keeps (name : String) : Moment α → Prop
  | .operate operation => operation.Keeps name
  | _ => True

def Avoids (id : String) : Moment α → Prop
  | .operate operation => operation.Avoids id
  | _ => True

def Spares (id : String) : Moment α → Prop
  | .operate (.drain other) => other ≠ id
  | _ => True

end Moment

namespace Ticking

variable {α : Type}

def start (surfaces : List (String × Option Recorder)) : Ticking α :=
  { stage := .withSurfaces surfaces, due := [] }

variable [Scene α]

def step (t : Ticking α) : Moment α → Ticking α
  | .operate operation => { t with stage := t.stage.operate operation }
  | .take time =>
    let (keys, stage) := t.stage.beginTick time
    { stage, due := keys ++ t.due }
  | .fire =>
    match t.due with
    | [] => t
    | key :: due => { stage := t.stage.fire key, due }

def run (t : Ticking α) (moments : List (Moment α)) : Ticking α := moments.foldl step t

theorem run_fire (s : Stage α) (keys due : List Nat) :
    run ⟨s, keys ++ due⟩ (List.replicate keys.length .fire) = ⟨keys.foldl Stage.fire s, due⟩ := by
  induction keys generalizing s with
  | nil => rfl
  | cons key keys ih => exact ih (s.fire key)

theorem run_take_fire (t : Ticking α) (time : Float) :
    t.run (.take time :: List.replicate (t.stage.tick time).1 .fire) =
      { t with stage := (t.stage.tick time).2 } :=
  run_fire _ (t.stage.beginTick time).1 t.due

variable {t : Ticking α}

theorem orderly_step (h : t.stage.Orderly t.due) (moment : Moment α) :
    (t.step moment).stage.Orderly (t.step moment).due := by
  cases moment with
  | operate operation => exact h.operate operation
  | take time => exact h.beginTick time
  | fire =>
      obtain ⟨s, due⟩ := t
      cases due with
      | nil => exact h
      | cons key due => exact h.fire

theorem orderly_run (h : t.stage.Orderly t.due) (moments : List (Moment α)) :
    (t.run moments).stage.Orderly (t.run moments).due := by
  induction moments generalizing t with
  | nil => exact h
  | cons moment moments ih => exact ih (orderly_step h moment)

theorem namesApart_step (h : t.stage.NamesApart) (moment : Moment α) :
    (t.step moment).stage.NamesApart := by
  cases moment with
  | operate operation => exact h.operate operation
  | take time => exact h
  | fire =>
      obtain ⟨s, due⟩ := t
      cases due with
      | nil => exact h
      | cons key due => exact h.stems (Stage.stems_fire s key)

theorem namesApart_run (h : t.stage.NamesApart) (moments : List (Moment α)) :
    (t.run moments).stage.NamesApart := by
  induction moments generalizing t with
  | nil => exact h
  | cons moment moments ih => exact ih (namesApart_step h moment)

end Ticking

end AnimatedCanvas
