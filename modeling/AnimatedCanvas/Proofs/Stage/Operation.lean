import AnimatedCanvas.Proofs.Animator
import AnimatedCanvas.Stage
import Mathlib.Data.List.Nodup

namespace AnimatedCanvas

variable {α : Type}

namespace Performer

def changed (p : Performer α) (key : Nat) (f : Animator α → Animator α) : Performer α :=
  if p.key == key then { p with animator := f p.animator } else p

@[simp] theorem changed_key (p : Performer α) (key : Nat) (f : Animator α → Animator α) :
    (p.changed key f).key = p.key := by
  unfold changed
  split <;> rfl

@[simp] theorem changed_name (p : Performer α) (key : Nat) (f : Animator α → Animator α) :
    (p.changed key f).name = p.name := by
  unfold changed
  split <;> rfl

theorem changed_self (p : Performer α) (f : Animator α → Animator α) :
    p.changed p.key f = { p with animator := f p.animator } := by
  simp [changed]

theorem changed_of_ne {p : Performer α} {key : Nat} (h : p.key ≠ key)
    (f : Animator α → Animator α) : p.changed key f = p := by
  simp [changed, h]

end Performer

namespace Stage

/-- What can be done to a stage. Asking and dropping go to the animator of a name. -/
inductive Operation (α : Type) where
  | mount (name id : String) (build : Size → Except ConfigError α)
  | mountStopped (name id : String) (build : Size → Except ConfigError α)
  | ask (name : String) (request : Request)
  | drop (name : String)
  | setLayout (id : String) (layout : Size)
  | detach (id : String)
  | drain (id : String)
  | tick (time : Float)

def withSurfaces (surfaces : List (String × Option Recorder)) : Stage α := { empty with surfaces }

/-- Does one operation. What fails, or goes to an animator that is not there, changes nothing. -/
def operate [Scene α] (s : Stage α) : Operation α → Stage α
  | .mount name id build =>
    match s.mount name id build with
    | .ok mounted => mounted
    | .error _ => s
  | .mountStopped name id build =>
    match s.mountStopped name id build with
    | .ok mounted => mounted
    | .error _ => s
  | .ask name request =>
    match s.performer? name with
    | some p => s.perform p request
    | none => s
  | .drop name =>
    match s.performer? name with
    | some p => s.dropPerformer p
    | none => s
  | .setLayout id layout => s.modifyRecorder id (·.setLayout layout)
  | .detach id => s.modifyRecorder id Recorder.detach
  | .drain id => s.modifyRecorder id Recorder.drain
  | .tick time => (s.tick time).2

def play [Scene α] (s : Stage α) (operations : List (Operation α)) : Stage α :=
  operations.foldl operate s

variable {s s' : Stage α} {p : Performer α} {name id : String}

def keys (s : Stage α) : List Nat := s.performers.map (·.key)

theorem performers_modify (s : Stage α) (key : Nat) (f : Animator α → Animator α) :
    (s.modify key f).performers = s.performers.map (·.changed key f) := rfl

@[simp] theorem keys_modify (s : Stage α) (key : Nat) (f : Animator α → Animator α) :
    (s.modify key f).keys = s.keys := by
  simp [keys, performers_modify, Function.comp_def]

theorem mem_modify {key : Nat} {f : Animator α → Animator α} :
    p ∈ (s.modify key f).performers ↔ ∃ o ∈ s.performers, o.changed key f = p := by
  rw [performers_modify, List.mem_map]

theorem mem_modify_self (member : p ∈ s.performers) (f : Animator α → Animator α) :
    { p with animator := f p.animator } ∈ (s.modify p.key f).performers :=
  mem_modify.mpr ⟨p, member, p.changed_self f⟩

theorem mem_modify_of_ne {key : Nat} (member : p ∈ s.performers) (different : p.key ≠ key)
    (f : Animator α → Animator α) : p ∈ (s.modify key f).performers :=
  mem_modify.mpr ⟨p, member, Performer.changed_of_ne different f⟩

theorem mem_of_performer? (found : s.performer? name = some p) : p ∈ s.performers ∧ p.name = name :=
  ⟨List.mem_of_find?_eq_some found, by simpa using List.find?_some found⟩

theorem exists_performer? (member : p ∈ s.performers) : ∃ o, s.performer? p.name = some o := by
  rw [← Option.isSome_iff_exists, performer?, List.find?_isSome]
  exact ⟨p, member, by simp⟩

theorem recorder?_modifyRecorder (s : Stage α) (id other : String) (f : Recorder → Recorder) :
    (s.modifyRecorder id f).recorder? other =
      if other = id then (s.recorder? other).map f else s.recorder? other := by
  unfold recorder? modifyRecorder
  induction s.surfaces with
  | nil => simp
  | cons surface rest ih =>
      obtain ⟨i, r⟩ := surface
      by_cases here : other = i
      · subst here
        by_cases changed : other = id <;> simp [changed]
      · have elsewhere : (other == i) = false := by simp [here]
        by_cases changed : i = id
        · subst changed
          simpa [List.lookup_cons, here, elsewhere] using ih
        · simpa [changed, List.lookup_cons, elsewhere] using ih

theorem recorder?_congr (h : s'.surfaces = s.surfaces) (id : String) :
    s'.recorder? id = s.recorder? id := by
  rw [recorder?, h, ← recorder?]

theorem openSurface_eq_ok {recorder : Recorder} :
    s.openSurface id = .ok recorder ↔ s.recorder? id = some recorder := by
  unfold openSurface recorder?
  rcases s.surfaces.lookup id with _ | _ | r <;> simp

theorem startPerformer_of_canStart (h : p.animator.canStart = true) :
    s.startPerformer p = ({ s with queue := (s.queue.request p.key).2 } : Stage α).modify p.key
      (·.start (s.queue.last + 1)) := by
  simp [startPerformer, h, request, FrameQueue.request]

theorem startPerformer_of_not_canStart (h : p.animator.canStart = false) :
    s.startPerformer p = s := by
  simp [startPerformer, h]

def newcomer (s : Stage α) (name : String) (animator : Animator α) : Performer α :=
  { name, key := s.lastKey + 1, animator }

def enter (s : Stage α) (name : String) (animator : Animator α) : Stage α :=
  { s with performers := s.performers ++ [s.newcomer name animator], lastKey := s.lastKey + 1 }

theorem mem_enter {animator : Animator α} : p ∈ (s.enter name animator).performers ↔
    p ∈ s.performers ∨ p = s.newcomer name animator := by
  simp [enter]

theorem newcomer_mem (s : Stage α) (name : String) (animator : Animator α) :
    s.newcomer name animator ∈ (s.enter name animator).performers :=
  mem_enter.mpr (.inr rfl)

def entered (s : Stage α) (name : String) (animator : Animator α) (isStarted : Bool) : Stage α :=
  if isStarted then (s.enter name animator).startPerformer (s.newcomer name animator)
  else s.enter name animator

variable [Scene α]

theorem add_eq (s : Stage α) (name : String) (animator : Animator α) (isStarted : Bool) :
    s.add name animator isStarted =
      ((s.performer? name).map (s.entered name animator isStarted).dropPerformer).getD
        (s.entered name animator isStarted) := by
  unfold add entered
  cases s.performer? name <;> cases isStarted <;> rfl

theorem mount_eq_ok {build : Size → Except ConfigError α} :
    s.mount name id build = .ok s' ↔ ∃ recorder scene, s.recorder? id = some recorder ∧
      build recorder.layout = .ok scene ∧
      s' = s.add name (.create id scene recorder.layout) true := by
  simp only [← openSurface_eq_ok, mount, bind, Except.bind, pure, Except.pure]
  cases s.openSurface id with
  | error e => simp
  | ok recorder =>
      cases built : build recorder.layout <;> simp [Except.mapError, built, eq_comm]

theorem mountStopped_eq_ok {build : Size → Except ConfigError α} :
    s.mountStopped name id build = .ok s' ↔ ∃ recorder scene, s.recorder? id = some recorder ∧
      build recorder.size = .ok scene ∧
      s' = s.add name (.create id scene recorder.size) false := by
  simp only [← openSurface_eq_ok, mountStopped, bind, Except.bind, pure, Except.pure]
  cases s.openSurface id with
  | error e => simp
  | ok recorder =>
      cases built : build recorder.size <;> simp [Except.mapError, built, eq_comm]

theorem destroyPerformer_of_waiting {handle : Nat} (h : p.animator.pending = some handle) :
    s.destroyPerformer p =
      ({ s with queue := s.queue.cancel handle } : Stage α).modify p.key Animator.destroy := by
  simp [destroyPerformer, h]

theorem destroyPerformer_of_stopped (h : p.animator.pending = none) :
    s.destroyPerformer p = s.modify p.key Animator.destroy := by
  simp [destroyPerformer, h]

theorem performers_destroyPerformer (s : Stage α) (p : Performer α) :
    (s.destroyPerformer p).performers = (s.modify p.key Animator.destroy).performers := by
  cases pending : p.animator.pending with
  | none => rw [destroyPerformer_of_stopped pending]
  | some handle =>
      rw [destroyPerformer_of_waiting pending]
      rfl

theorem runFrame_of_draws (h : p.animator.draws (s.isAttached p.animator.surface) = true) :
    s.runFrame p =
      ({ s.modifyRecorder p.animator.surface (·.draw p.animator.frameCommands) with
          queue := (s.queue.request p.key).2 } : Stage α).modify p.key
        (·.drawn (s.queue.last + 1)) := by
  simp [runFrame, h, request, FrameQueue.request, modifyRecorder]

theorem runFrame_of_not_draws (h : p.animator.draws (s.isAttached p.animator.surface) = false) :
    s.runFrame p = s.modify p.key Animator.skipped := by
  simp [runFrame, h]

inductive Answer (s : Stage α) (p : Performer α) : Stage α → Prop
  | nothing : Answer s p s
  | started : Answer s p (s.startPerformer p)
  | destroyed : Answer s p (s.destroyPerformer p)
  | scene (f : α → α) : Answer s p (s.modify p.key (·.withScene f))
  | resized (size : Size) : Answer s p (s.modify p.key (·.resize size))

theorem answer_perform (s : Stage α) (p : Performer α) (request : Request) :
    s.Answer p (s.perform p request) := by
  cases request with
  | start => exact .started
  | destroy => exact .destroyed
  | pointerMove position => exact .scene (Scene.pointerMove position)
  | pointerLeave => exact .scene Scene.pointerLeave
  | click position => exact .scene (Scene.click position)
  | resize =>
      simp only [perform]
      split
      next recorder _ => exact .resized recorder.layout
      next => exact .nothing

theorem operate_ask (found : s.performer? name = some p) (request : Request) :
    s.operate (.ask name request) = s.perform p request := by
  simp only [operate, found]

inductive Outcome (s : Stage α) : Operation α → Stage α → Prop
  | nothing (operation : Operation α) : Outcome s operation s
  | mounted (name id : String) (build : Size → Except ConfigError α) (scene : α) (size : Size) :
      Outcome s (.mount name id build) (s.add name (.create id scene size) true)
  | mountedStopped (name id : String) (build : Size → Except ConfigError α) (scene : α)
      (size : Size) :
      Outcome s (.mountStopped name id build) (s.add name (.create id scene size) false)
  | performed (p : Performer α) (member : p ∈ s.performers) (request : Request) :
      Outcome s (.ask p.name request) (s.perform p request)
  | dropped (p : Performer α) (member : p ∈ s.performers) :
      Outcome s (.drop p.name) (s.dropPerformer p)
  | recorded (operation : Operation α) (id : String) (f : Recorder → Recorder) :
      Outcome s operation (s.modifyRecorder id f)
  | ticked (time : Float) : Outcome s (.tick time) (s.tick time).2

theorem outcome_operate (s : Stage α) (operation : Operation α) :
    s.Outcome operation (s.operate operation) := by
  cases operation with
  | mount name id build =>
      simp only [operate]
      split
      next mounted =>
        obtain ⟨recorder, scene, -, -, rfl⟩ := mount_eq_ok.mp mounted
        exact .mounted name id build scene recorder.layout
      next => exact .nothing _
  | mountStopped name id build =>
      simp only [operate]
      split
      next mounted =>
        obtain ⟨recorder, scene, -, -, rfl⟩ := mountStopped_eq_ok.mp mounted
        exact .mountedStopped name id build scene recorder.size
      next => exact .nothing _
  | ask name request =>
      simp only [operate]
      split
      next p found =>
        obtain ⟨member, rfl⟩ := mem_of_performer? found
        exact .performed p member request
      next => exact .nothing _
  | drop name =>
      simp only [operate]
      split
      next p found =>
        obtain ⟨member, rfl⟩ := mem_of_performer? found
        exact .dropped p member
      next => exact .nothing _
  | setLayout id layout => exact .recorded _ id (·.setLayout layout)
  | detach id => exact .recorded _ id Recorder.detach
  | drain id => exact .recorded _ id Recorder.drain
  | tick time => exact .ticked time

end Stage
end AnimatedCanvas
