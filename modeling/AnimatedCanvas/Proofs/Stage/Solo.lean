import AnimatedCanvas.Proofs.Stage.Descent

namespace AnimatedCanvas

variable {α : Type}

structure Solo (α : Type) where
  scene : α
  size : Size
  isRunning : Bool
  isDestroyed : Bool
  frames : Nat
  recorder : Recorder

namespace Solo

inductive Operation where
  | ask (request : Stage.Request)
  | setLayout (layout : Size)
  | detach
  | drain
  | tick

def create (scene : α) (size : Size) (recorder : Recorder) (isRunning : Bool) : Solo α :=
  { scene, size, isRunning, isDestroyed := false, frames := 0, recorder }

variable [Scene α]

def perform (v : Solo α) (request : Stage.Request) : Solo α :=
  if v.isDestroyed then v
  else
    match request with
    | .start => { v with isRunning := true }
    | .destroy => { v with isDestroyed := true, isRunning := false, scene := Scene.clear v.scene }
    | .pointerMove position => { v with scene := Scene.pointerMove position v.scene }
    | .pointerLeave => { v with scene := Scene.pointerLeave v.scene }
    | .click position => { v with scene := Scene.click position v.scene }
    | .resize =>
      { v with size := v.recorder.layout, scene := Scene.resize v.recorder.layout v.scene }

def tick (v : Solo α) : Solo α :=
  if !v.isRunning then v
  else if !v.recorder.isAttached then { v with isRunning := false }
  else
    { v with
      scene := Scene.step v.scene
      frames := v.frames + 1
      recorder := v.recorder.draw (Scene.draw (Scene.step v.scene)) }

def step (v : Solo α) : Operation → Solo α
  | .ask request => v.perform request
  | .setLayout layout => { v with recorder := v.recorder.setLayout layout }
  | .detach => { v with recorder := v.recorder.detach }
  | .drain => { v with recorder := v.recorder.drain }
  | .tick => v.tick

def run (v : Solo α) (operations : List Operation) : Solo α := operations.foldl step v

theorem tick_of_still {v : Solo α} (h : v.isRunning = false) : v.tick = v := by
  simp [tick, h]

end Solo

def Animator.solo (a : Animator α) (recorder : Recorder) : Solo α :=
  { scene := a.scene, size := a.size, isRunning := a.isRunning, isDestroyed := a.isDestroyed
    frames := a.frames, recorder }

namespace Stage

def view (s : Stage α) (name : String) : Option (Solo α) := do
  let p ← s.performer? name
  let recorder ← s.recorder? p.animator.surface
  return p.animator.solo recorder

def Operation.solo? (name id : String) : Operation α → Option Solo.Operation
  | .ask other request => if other = name then some (.ask request) else none
  | .setLayout other layout => if other = id then some (.setLayout layout) else none
  | .detach other => if other = id then some .detach else none
  | .drain other => if other = id then some .drain else none
  | .tick _ => some .tick
  | _ => none

def Operation.Keeps (name : String) : Operation α → Prop
  | .mount other _ _ => other ≠ name
  | .mountStopped other _ _ => other ≠ name
  | .drop other => other ≠ name
  | _ => True

def Operation.Avoids (id : String) : Operation α → Prop
  | .mount _ other _ => other ≠ id
  | .mountStopped _ other _ => other ≠ id
  | _ => True

structure Plays (s : Stage α) (p : Performer α) (recorder : Recorder) : Prop where
  member : p ∈ s.performers
  named : ∀ o ∈ s.performers, o.name = p.name → o.key = p.key
  alone : ∀ o ∈ s.performers, o.animator.surface = p.animator.surface → o.key = p.key
  surface : s.recorder? p.animator.surface = some recorder

def Shows (s : Stage α) (name : String) (key : Nat) (id : String) (v : Solo α) : Prop :=
  ∃ p recorder, s.Plays p recorder ∧ p.name = name ∧ p.key = key ∧ p.animator.surface = id ∧
    p.animator.solo recorder = v

variable {s s' : Stage α} {p o : Performer α} {recorder recorder' : Recorder} {name id : String}
  {key : Nat} {v : Solo α} {due : List Nat}

theorem Plays.shows (h : s.Plays p recorder) :
    s.Shows p.name p.key p.animator.surface (p.animator.solo recorder) :=
  ⟨p, recorder, h, rfl, rfl, rfl, rfl⟩

theorem Plays.performer? (h : s.Plays p recorder) (orderly : s.Orderly due) :
    s.performer? p.name = some p :=
  orderly.performer?_eq_some h.member h.named

theorem Shows.view (h : s.Shows name key id v) (orderly : s.Orderly due) :
    s.view name = some v := by
  obtain ⟨p, recorder, plays, rfl, rfl, rfl, rfl⟩ := h
  simp [Stage.view, plays.performer? orderly, plays.surface]

theorem Plays.stays (h : s.Plays p recorder) (stems : s'.Stems s) {p' : Performer α}
    (member : p' ∈ s'.performers) (becomes : p.Becomes p')
    (surface : s'.recorder? p.animator.surface = some recorder') : s'.Plays p' recorder' where
  member := member
  named := by
    intro o' there onto
    obtain ⟨o, old, becomes'⟩ := stems o' there
    rw [← becomes'.key, ← becomes.key]
    exact h.named o old (by rw [becomes'.name, onto, becomes.name])
  alone := by
    intro o' there onto
    obtain ⟨o, old, becomes'⟩ := stems o' there
    rw [← becomes'.key, ← becomes.key]
    exact h.alone o old (by rw [becomes'.surface, onto, becomes.surface])
  surface := by rwa [← becomes.surface]

theorem Plays.edits_other (h : s.Plays p recorder) (edits : s.Edits o.key s')
    (different : p.key ≠ o.key) (surface : s'.recorder? p.animator.surface = some recorder) :
    s'.Plays p recorder :=
  h.stays edits.stems (edits.mem h.member different) (.refl p) surface

theorem Plays.edits_own (h : s.Plays p recorder) {f : Animator α → Animator α}
    (same : ∀ a, (f a).surface = a.surface)
    (performers : s'.performers = (s.modify p.key f).performers)
    (surface : s'.recorder? p.animator.surface = some recorder') :
    s'.Shows p.name p.key p.animator.surface ((f p.animator).solo recorder') := by
  have stems : s'.Stems s := Edits.stems ⟨f, same, performers⟩
  have member := performers ▸ mem_modify_self h.member f
  have becomes : p.Becomes { p with animator := f p.animator } := ⟨rfl, rfl, (same _).symm⟩
  exact ⟨_, recorder', h.stays stems member becomes surface, rfl, rfl, same p.animator, rfl⟩

theorem Shows.modifyRecorder (h : s.Shows name key id v) (other : String)
    (f : Recorder → Recorder) : (s.modifyRecorder other f).Shows name key id
      (if other = id then { v with recorder := f v.recorder } else v) := by
  obtain ⟨p, recorder, plays, rfl, rfl, rfl, rfl⟩ := h
  have stems := stems_modifyRecorder s other f
  have surface := recorder?_modifyRecorder s other p.animator.surface f
  by_cases own : other = p.animator.surface
  · rw [if_pos own.symm, plays.surface, Option.map_some] at surface
    rw [if_pos own]
    exact (plays.stays stems plays.member (.refl p) surface).shows
  · rw [if_neg (Ne.symm own), plays.surface] at surface
    rw [if_neg own]
    exact (plays.stays stems plays.member (.refl p) surface).shows

theorem solo_withScene (a : Animator α) (recorder : Recorder) (f : α → α) :
    (a.withScene f).solo recorder =
      if (a.solo recorder).isDestroyed then a.solo recorder
      else { a.solo recorder with scene := f a.scene } := by
  unfold Animator.withScene Animator.solo
  split <;> rfl

variable [Scene α]

theorem solo_destroy (a : Animator α) (recorder : Recorder) :
    a.destroy.solo recorder = (a.solo recorder).perform .destroy := by
  unfold Animator.destroy Solo.perform Animator.solo
  split <;> rfl

theorem solo_resize (a : Animator α) (recorder : Recorder) :
    (a.resize recorder.layout).solo recorder = (a.solo recorder).perform .resize := by
  unfold Animator.resize Solo.perform Animator.solo
  split <;> rfl

theorem solo_start {a : Animator α} (h : a.canStart = true) (recorder : Recorder) (handle : Nat) :
    (a.start handle).solo recorder = (a.solo recorder).perform .start := by
  obtain ⟨-, alive⟩ := Animator.canStart_eq_true.mp h
  simp [Animator.start, Animator.solo, Solo.perform, alive]

theorem solo_of_not_canStart {a : Animator α} (h : a.canStart = false) (recorder : Recorder) :
    (a.solo recorder).perform .start = a.solo recorder := by
  cases destroyed : a.isDestroyed with
  | true => simp [Solo.perform, Animator.solo, destroyed]
  | false =>
      have running : a.isRunning = true := by simpa [Animator.canStart, destroyed] using h
      simp [Solo.perform, Animator.solo, destroyed, running]

theorem Plays.perform_other (h : s.Plays p recorder) (different : p.key ≠ o.key)
    (request : Request) : (s.perform o request).Plays p recorder :=
  h.edits_other (edits_perform s o request) different
    ((recorder?_congr (surfaces_perform s o request) _).trans h.surface)

theorem Plays.perform_own (h : s.Plays p recorder) (request : Request) :
    (s.perform p request).Shows p.name p.key p.animator.surface
      ((p.animator.solo recorder).perform request) := by
  have surface := (recorder?_congr (surfaces_perform s p request) _).trans h.surface
  cases request with
  | start =>
      cases start : p.animator.canStart with
      | true =>
          rw [← solo_start start recorder (s.queue.last + 1)]
          refine h.edits_own (f := (·.start (s.queue.last + 1))) (fun _ => rfl) ?_ surface
          simp only [Stage.perform]
          rw [startPerformer_of_canStart start]
          rfl
      | false =>
          rw [solo_of_not_canStart start]
          simp only [Stage.perform]
          rw [startPerformer_of_not_canStart start]
          exact h.shows
  | destroy =>
      rw [← solo_destroy]
      exact h.edits_own Animator.surface_destroy (performers_destroyPerformer s p) surface
  | pointerMove position =>
      have moved := h.edits_own (Animator.surface_withScene (Scene.pointerMove position)) rfl surface
      rwa [solo_withScene] at moved
  | pointerLeave =>
      have left := h.edits_own (Animator.surface_withScene Scene.pointerLeave) rfl surface
      rwa [solo_withScene] at left
  | click position =>
      have clicked := h.edits_own (Animator.surface_withScene (Scene.click position)) rfl surface
      rwa [solo_withScene] at clicked
  | resize =>
      have resized : s.perform p .resize = s.modify p.key (·.resize recorder.layout) := by
        simp only [Stage.perform, h.surface]
      rw [resized, ← solo_resize]
      exact h.edits_own (Animator.surface_resize recorder.layout) rfl h.surface

end Stage
end AnimatedCanvas
