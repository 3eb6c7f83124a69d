import AnimatedCanvas.Proofs.Stage.Solo

/-!
# Animators on one stage do not interfere

An animator that has its surface for itself comes, on a stage, to what its own operations and the
ticks make of it alone (`view_play_mount`), whatever is done to the others in between: at each tick it
gets exactly one frame if it runs, and none otherwise.
-/

namespace AnimatedCanvas.Stage

variable {α : Type} {s s' : Stage α} {p o : Performer α} {recorder : Recorder} {name id : String}
  {key : Nat} {v : Solo α} {due : List Nat}

theorem Shows.beginTick (h : s.Shows name key id v) (time : Float) :
    (s.beginTick time).2.Shows name key id v := by
  obtain ⟨p, recorder, plays, rfl, rfl, rfl, rfl⟩ := h
  exact (plays.stays (stems_beginTick s time) plays.member (.refl p) plays.surface).shows

theorem Plays.isAttached (h : s.Plays p recorder) :
    s.isAttached p.animator.surface = recorder.isAttached := by
  simp [Stage.isAttached, h.surface]

theorem mem_entered_newcomer (s : Stage α) (name : String) {animator : Animator α}
    (start : animator.canStart = true) (recorder : Recorder) (isStarted : Bool) :
    ∃ p ∈ (s.entered name animator isStarted).performers, (s.newcomer name animator).Becomes p ∧
      p.animator.solo recorder = { animator.solo recorder with isRunning := isStarted } := by
  obtain ⟨idle, -⟩ := Animator.canStart_eq_true.mp start
  cases isStarted with
  | false =>
      refine ⟨_, newcomer_mem s name animator, .refl _, ?_⟩
      simp [newcomer, Animator.solo, idle]
  | true =>
      have started : (s.entered name animator true).performers =
          ((s.enter name animator).modify (s.newcomer name animator).key
            (·.start (s.queue.last + 1))).performers := by
        change ((s.enter name animator).startPerformer (s.newcomer name animator)).performers = _
        rw [startPerformer_of_canStart start]
        rfl
      rw [started]
      exact ⟨_, mem_modify_self (newcomer_mem s name animator) _, ⟨rfl, rfl, rfl⟩, rfl⟩

variable [Scene α]

theorem tick_solo_of_draws {a : Animator α} (draws : a.draws recorder.isAttached = true)
    (handle : Nat) :
    (a.solo recorder).tick = (a.drawn handle).solo (recorder.draw a.frameCommands) := by
  obtain ⟨⟨alive, running⟩, attached⟩ := Animator.draws_eq_true.mp draws
  simp [Solo.tick, Animator.solo, Animator.drawn, Animator.frameCommands, running, attached]

theorem tick_solo_of_not_draws {a : Animator α} (draws : a.draws recorder.isAttached = false)
    (still : a.isDestroyed = true → a.isRunning = false) :
    (a.solo recorder).tick = a.skipped.solo recorder := by
  cases running : a.isRunning with
  | false => simp [Solo.tick, Animator.solo, Animator.skipped, running]
  | true =>
      have alive : a.isDestroyed = false := by
        by_contra destroyed
        simp [still (by simpa using destroyed)] at running
      have gone : recorder.isAttached = false := by
        simpa [Animator.draws, alive, running] using draws
      simp [Solo.tick, Animator.solo, Animator.skipped, running, gone]

theorem Plays.runFrame_own (h : s.Plays p recorder)
    (still : p.animator.isDestroyed = true → p.animator.isRunning = false) :
    (s.runFrame p).Shows p.name p.key p.animator.surface (p.animator.solo recorder).tick := by
  cases draws : p.animator.draws (s.isAttached p.animator.surface) with
  | true =>
      rw [runFrame_of_draws draws]
      rw [h.isAttached] at draws
      rw [tick_solo_of_draws draws (s.queue.last + 1)]
      refine h.edits_own (f := (·.drawn (s.queue.last + 1))) (fun _ => rfl) rfl ?_
      change (s.modifyRecorder p.animator.surface _).recorder? _ = _
      rw [recorder?_modifyRecorder, if_pos rfl, h.surface, Option.map_some]
  | false =>
      rw [runFrame_of_not_draws draws]
      rw [h.isAttached] at draws
      rw [tick_solo_of_not_draws draws still]
      exact h.edits_own (f := Animator.skipped) (fun _ => rfl) rfl h.surface

theorem Plays.runFrame_other (h : s.Plays p recorder) (member : o ∈ s.performers)
    (different : p.key ≠ o.key) : (s.runFrame o).Plays p recorder := by
  refine h.edits_other (edits_runFrame s o) different ?_
  cases draws : o.animator.draws (s.isAttached o.animator.surface) with
  | true =>
      have elsewhere : p.animator.surface ≠ o.animator.surface := by
        intro onto
        exact different (h.alone o member onto.symm).symm
      rw [runFrame_of_draws draws]
      change (s.modifyRecorder o.animator.surface _).recorder? _ = _
      rw [recorder?_modifyRecorder, if_neg elsewhere, h.surface]
  | false =>
      rw [runFrame_of_not_draws draws]
      exact h.surface

theorem Shows.fire_own (h : s.Shows name key id v) (orderly : s.Orderly due) :
    (s.fire key).Shows name key id v.tick := by
  obtain ⟨p, recorder, plays, rfl, rfl, rfl, rfl⟩ := h
  have found : s.performerOf? p.key = some p := orderly.performerOf?_eq_some.mpr ⟨plays.member, rfl⟩
  simp only [fire, found]
  exact plays.runFrame_own fun destroyed =>
    ((orderly.standing p plays.member).stopped_of_destroyed destroyed).1

theorem Shows.fire_other (h : s.Shows name key id v) (orderly : s.Orderly due) {other : Nat}
    (different : key ≠ other) : (s.fire other).Shows name key id v := by
  obtain ⟨p, recorder, plays, rfl, rfl, rfl, rfl⟩ := h
  cases found : s.performerOf? other with
  | none =>
      simp only [fire, found]
      exact plays.shows
  | some o =>
      obtain ⟨member, rfl⟩ := orderly.performerOf?_eq_some.mp found
      simp only [fire, found]
      exact (plays.runFrame_other member different).shows

theorem Shows.fireAll {keys : List Nat} (h : s.Shows name key id v)
    (orderly : s.Orderly (keys ++ due)) :
    (keys.foldl fire s).Shows name key id (if key ∈ keys then v.tick else v) := by
  induction keys generalizing s v with
  | nil => simpa using h
  | cons first rest ih =>
      obtain ⟨absent, -⟩ := List.nodup_cons.mp orderly.due_nodup
      by_cases own : key = first
      · subst own
        have once := ih (h.fire_own orderly) orderly.fire
        rw [if_neg fun later => absent (List.mem_append_left due later)] at once
        rw [if_pos List.mem_cons_self]
        exact once
      · have later := ih (h.fire_other orderly own) orderly.fire
        simpa [own] using later

theorem Shows.tick (h : s.Shows name key id v) (orderly : s.Orderly due)
    (settled : key ∈ due → v.isRunning = false) (time : Float) :
    (s.tick time).2.Shows name key id v.tick := by
  have fired := (h.beginTick time).fireAll (orderly.beginTick time)
  by_cases called : key ∈ (s.beginTick time).1
  · rwa [if_pos called] at fired
  · -- Nothing of it was waiting, so it has stopped, or an earlier tick has taken its request.
    rw [if_neg called] at fired
    suffices v.isRunning = false by
      rw [Solo.tick_of_still this]
      exact fired
    obtain ⟨p, recorder, plays, rfl, rfl, rfl, rfl⟩ := h
    have uncalled : s.queue.requestsOf p.key = [] := not_not.mp (mt FrameQueue.mem_owners.mpr called)
    cases orderly.standing p plays.member with
    | waiting handle running alive pending queued absent => simp [queued] at uncalled
    | called handle running alive pending queued taken given present => exact settled present
    | stopped still pending queued ended => exact still

theorem Plays.add_other (h : s.Plays p recorder) (orderly : s.Orderly due) {other : String}
    (animator : Animator α) (isStarted : Bool) (keeps : other ≠ p.name)
    (avoids : animator.surface ≠ p.animator.surface) :
    (s.add other animator isStarted).Plays p recorder where
  member := orderly.mem_add h.member keeps animator isStarted
  named := by
    intro o' there same
    rcases stems_add there with ⟨o, old, becomes, -⟩ | new
    · rw [← becomes.key]
      exact h.named o old (becomes.name.trans same)
    · exact absurd (new.name.trans same) keeps
  alone := by
    intro o' there onto
    rcases stems_add there with ⟨o, old, becomes, -⟩ | new
    · rw [← becomes.key]
      exact h.alone o old (becomes.surface.trans onto)
    · exact absurd (new.surface.trans onto) avoids
  surface := (recorder?_congr (surfaces_add s other animator isStarted) _).trans h.surface

theorem Plays.drop_other (h : s.Plays p recorder) (different : p.key ≠ o.key) :
    (s.dropPerformer o).Plays p recorder :=
  h.stays (fun o' there => (stems_dropPerformer s o o' there).2) (mem_dropPerformer h.member different)
    (.refl p) ((recorder?_congr (surfaces_destroyPerformer s o) _).trans h.surface)

theorem Shows.add (orderly : s.Orderly due) (apart : s.NamesApart) (animator : Animator α)
    (isStarted : Bool) (start : animator.canStart = true)
    (surface : s.recorder? animator.surface = some recorder)
    (alone : ∀ o ∈ s.performers, o.animator.surface ≠ animator.surface) :
    (s.add name animator isStarted).Shows name (s.lastKey + 1) animator.surface
      { animator.solo recorder with isRunning := isStarted } := by
  obtain ⟨p, entered, becomes, shown⟩ := mem_entered_newcomer s name start recorder isStarted
  have member : p ∈ (s.add name animator isStarted).performers := by
    refine mem_add entered ?_
    intro old found own
    exact orderly.key_ne_newcomer (mem_of_performer? found).1 (own.symm.trans becomes.key.symm)
  refine ⟨p, recorder, ⟨member, ?_, ?_, ?_⟩, becomes.name.symm, becomes.key.symm,
    becomes.surface.symm, shown⟩
  · intro o there same
    exact apart.add o there p member same
  · intro o there same
    rcases stems_add there with ⟨old, before, becomes', -⟩ | new
    · exact absurd (becomes'.surface.trans (same.trans becomes.surface.symm)) (alone old before)
    · exact new.key.symm.trans becomes.key
  · rw [← becomes.surface, recorder?_congr (surfaces_add s name animator isStarted)]
    exact surface

theorem Shows.recorded (h : s.Shows name key id v) (other : String) (own : Solo.Operation)
    {f : Recorder → Recorder} (does : v.step own = { v with recorder := f v.recorder }) :
    (s.modifyRecorder other f).Shows name key id
      (v.run (if other = id then some own else none).toList) := by
  have changed := h.modifyRecorder other f
  by_cases here : other = id
  · rw [if_pos here] at changed ⊢
    rwa [← does] at changed
  · rw [if_neg here] at changed ⊢
    exact changed

theorem Shows.operate (h : s.Shows name key id v) (orderly : s.Orderly due)
    (settled : key ∈ due → v.isRunning = false) {operation : Operation α}
    (keeps : operation.Keeps name) (avoids : operation.Avoids id) :
    (s.operate operation).Shows name key id (v.run (operation.solo? name id).toList) := by
  cases operation with
  | mount other onto build =>
      obtain ⟨p, recorder, plays, rfl, rfl, rfl, rfl⟩ := h
      simp only [Stage.operate]
      split
      next mounted =>
        obtain ⟨found, scene, -, -, rfl⟩ := mount_eq_ok.mp mounted
        exact (plays.add_other orderly (.create onto scene found.layout) true keeps avoids).shows
      next => exact plays.shows
  | mountStopped other onto build =>
      obtain ⟨p, recorder, plays, rfl, rfl, rfl, rfl⟩ := h
      simp only [Stage.operate]
      split
      next mounted =>
        obtain ⟨found, scene, -, -, rfl⟩ := mountStopped_eq_ok.mp mounted
        exact (plays.add_other orderly (.create onto scene found.size) false keeps avoids).shows
      next => exact plays.shows
  | ask other request =>
      obtain ⟨p, recorder, plays, rfl, rfl, rfl, rfl⟩ := h
      by_cases own : other = p.name
      · rw [own, operate_ask (plays.performer? orderly), Operation.solo?, if_pos rfl]
        exact plays.perform_own request
      · simp only [Stage.operate, Operation.solo?, if_neg own]
        split
        next o found =>
          obtain ⟨there, rfl⟩ := mem_of_performer? found
          exact (plays.perform_other (orderly.key_ne_of_name there plays.member own) request).shows
        next => exact plays.shows
  | drop other =>
      obtain ⟨p, recorder, plays, rfl, rfl, rfl, rfl⟩ := h
      simp only [Stage.operate]
      split
      next o found =>
        obtain ⟨there, rfl⟩ := mem_of_performer? found
        exact (plays.drop_other (orderly.key_ne_of_name there plays.member keeps)).shows
      next => exact plays.shows
  | setLayout other layout => exact h.recorded other (.setLayout layout) rfl
  | detach other => exact h.recorded other .detach rfl
  | drain other => exact h.recorded other .drain rfl
  | tick time => exact h.tick orderly settled time

theorem Shows.play {operations : List (Operation α)} (h : s.Shows name key id v)
    (orderly : s.Orderly [])
    (others : ∀ operation ∈ operations, operation.Keeps name ∧ operation.Avoids id) :
    (s.play operations).Shows name key id (v.run (operations.filterMap (·.solo? name id))) := by
  induction operations generalizing s v with
  | nil => exact h
  | cons operation operations ih =>
      obtain ⟨⟨keeps, avoids⟩, later⟩ := List.forall_mem_cons.mp others
      have played := ih (h.operate orderly (by simp) keeps avoids) (orderly.operate operation) later
      rw [List.filterMap_cons]
      cases means : operation.solo? name id with
      | none => rwa [means] at played
      | some own => rwa [means] at played

theorem Orderly.view_play_add (orderly : s.Orderly []) (apart : s.NamesApart)
    (found : s.recorder? id = some recorder) (free : ∀ o ∈ s.performers, o.animator.surface ≠ id)
    {operations : List (Operation α)}
    (others : ∀ operation ∈ operations, operation.Keeps name ∧ operation.Avoids id)
    (scene : α) (size : Size) (isStarted : Bool) :
    ((s.add name (.create id scene size) isStarted).play operations).view name =
      some ((Solo.create scene size recorder isStarted).run
        (operations.filterMap (·.solo? name id))) := by
  have after : (s.add name (.create id scene size) isStarted).Orderly [] :=
    orderly.add name rfl rfl isStarted
  have shown : Shows _ name _ id _ :=
    Shows.add orderly apart (.create id scene size) isStarted rfl found free
  exact (shown.play after others).view (after.play operations)

/-- One that is put on a surface of its own comes to what it would have come to alone. -/
theorem view_play_mount (surfaces : List (String × Option Recorder))
    (before operations : List (Operation α)) (name id : String)
    (build : Size → Except ConfigError α) :
    let s := (withSurfaces surfaces).play before
    (∀ o ∈ s.performers, o.animator.surface ≠ id) →
    (∀ operation ∈ operations, operation.Keeps name ∧ operation.Avoids id) →
    (∀ mounted, s.mount name id build = .ok mounted →
      ∃ recorder scene, s.recorder? id = some recorder ∧ build recorder.layout = .ok scene ∧
        (mounted.play operations).view name =
          some ((Solo.create scene recorder.layout recorder true).run
            (operations.filterMap (·.solo? name id)))) ∧
    (∀ mounted, s.mountStopped name id build = .ok mounted →
      ∃ recorder scene, s.recorder? id = some recorder ∧ build recorder.size = .ok scene ∧
        (mounted.play operations).view name =
          some ((Solo.create scene recorder.size recorder false).run
            (operations.filterMap (·.solo? name id)))) := by
  intro s free others
  have orderly : s.Orderly [] := (orderly_withSurfaces surfaces).play before
  have apart : s.NamesApart := (namesApart_withSurfaces surfaces).play before
  constructor
  · intro mounted done
    obtain ⟨recorder, scene, found, built, rfl⟩ := mount_eq_ok.mp done
    exact ⟨recorder, scene, found, built,
      orderly.view_play_add apart found free others scene recorder.layout true⟩
  · intro mounted done
    obtain ⟨recorder, scene, found, built, rfl⟩ := mountStopped_eq_ok.mp done
    exact ⟨recorder, scene, found, built,
      orderly.view_play_add apart found free others scene recorder.size false⟩

theorem view_play_mount_right :
    let s := (withSurfaces [("left", some (.create ⟨200.0, 100.0⟩)),
      ("right", some (.create ⟨80.0, 60.0⟩))]).play [.mount "a" "left" blankDiagram, .tick 16.0]
    let operations : List (Operation (CircuitDiagram Generator)) :=
      [.tick 32.0, .ask "a" .destroy, .ask "b" .start, .drop "a", .tick 48.0]
    ∃ mounted scene, s.mount "b" "right" blankDiagram = .ok mounted ∧
      blankDiagram ⟨80.0, 60.0⟩ = .ok scene ∧
      (mounted.play operations).view "b" =
        some ((Solo.create scene ⟨80.0, 60.0⟩ (.create ⟨80.0, 60.0⟩) true).run
          [.tick, .ask .start, .tick]) := by
  intro s operations
  have onLeft : s.performers.map (·.animator.surface) = ["left"] := rfl
  have free : ∀ o ∈ s.performers, o.animator.surface ≠ "right" := by
    intro o member onto
    have there := List.mem_map_of_mem (f := (·.animator.surface)) member
    rw [onLeft, onto] at there
    simp at there
  have others : ∀ operation ∈ operations, operation.Keeps "b" ∧ operation.Avoids "right" := by
    simp [operations, Operation.Keeps, Operation.Avoids]
  obtain ⟨started, -⟩ := view_play_mount _ _ operations "b" "right" blankDiagram free others
  obtain ⟨recorder, scene, found, built, shown⟩ := started _ rfl
  cases found
  exact ⟨_, scene, rfl, built, shown⟩

end AnimatedCanvas.Stage
