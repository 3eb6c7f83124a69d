import AnimatedCanvas.Proofs.Animator
import AnimatedCanvas.Proofs.Page.Loops

namespace AnimatedCanvas.Page

/-- An animation that has been set up, by the name of what holds it. -/
structure Entry where
  holder : String
  key : Nat
  canvas : Nat
  isInteractive : Bool
  isLooping : Bool
deriving DecidableEq

namespace Entry

def listeners (e : Entry) : List Listener :=
  ⟨.window, .resize, e.key⟩ ::
    if e.isInteractive then
      [⟨.element e.canvas, .pointerMove, e.key⟩, ⟨.element e.canvas, .click, e.key⟩,
        ⟨.element e.canvas, .pointerLeave, e.key⟩]
    else []

def afterFrame (isAttached : Nat → Bool) (e : Entry) : Entry :=
  { e with isLooping := e.isLooping && isAttached e.canvas }

theorem afterFrame_of_still {e : Entry} (h : e.isLooping = false) (isAttached : Nat → Bool) :
    e.afterFrame isAttached = e := by
  simp only [afterFrame, h, Bool.false_and]
  rw [← h]

structure Describes (e : Entry) (m : Mount) : Prop where
  key : m.key = e.key
  canvas : m.canvas = e.canvas
  alive : m.animator.isDestroyed = false
  running : m.animator.isRunning = e.isLooping

theorem Describes.change {e : Entry} {m : Mount} (h : e.Describes m)
    {f : Animator (Animation Generator) → Animator (Animation Generator)} (keeps : Animator.KeepsLoop f) :
    e.Describes { m with animator := f m.animator } where
  key := h.key
  canvas := h.canvas
  alive := (keeps.destroyed _).trans h.alive
  running := (keeps.running _).trans h.running

theorem owner_of_mem_listeners {e : Entry} {l : Listener} (member : l ∈ e.listeners) :
    l.owner = e.key := by
  suffices ∀ l ∈ e.listeners, l.owner = e.key from this l member
  cases interactive : e.isInteractive <;> simp [listeners, interactive]

end Entry

def isAttached (p : Page) (key : Nat) : Bool := (p.element? key).any (·.isConnected)

variable {p : Page} {m : Mount} {ledger : List Entry} {due : List Nat}

/-! ## The loops -/

structure Runs (p : Page) (ledger : List Entry) (due : List Nat) : Prop where
  orderly : p.stage.Orderly due
  requests : p.frameFailure = none
  keys_nodup : (ledger.map (·.key)).Nodup
  mounted : ∀ e ∈ ledger, ∃ m ∈ p.mounts, e.Describes m
  waiting : p.frames.owners ++ due = (ledger.filter (·.isLooping)).map (·.key)

theorem Runs.key_le (h : p.Runs ledger due) {e : Entry} (member : e ∈ ledger) :
    e.key ≤ p.lastKey := by
  obtain ⟨m, there, describes⟩ := h.mounted e member
  rw [← describes.key]
  exact h.orderly.keys_le _ (performer_mem there)

theorem Runs.eq_of_key (h : p.Runs ledger due) {a b : Entry} (ha : a ∈ ledger) (hb : b ∈ ledger)
    (same : a.key = b.key) : a = b :=
  List.inj_on_of_nodup_map h.keys_nodup ha hb same

theorem Runs.congr (h : p.Runs ledger due) {q : Page} (requests : q.frameFailure = none)
    (frames : q.frames = p.frames) (mounts : q.mounts = p.mounts) (lastKey : q.lastKey = p.lastKey) :
    q.Runs ledger due := by
  have stage : q.stage = p.stage := by rw [stage, frames, mounts, lastKey, ← stage]
  exact ⟨stage ▸ h.orderly, requests, h.keys_nodup, mounts ▸ h.mounted, frames ▸ h.waiting⟩

theorem Runs.modifyMount (h : p.Runs ledger due) (member : m ∈ p.mounts)
    {f : Animator (Animation Generator) → Animator (Animation Generator)}
    (keeps : Animator.KeepsLoop f) : (p.modifyMount m.key f).Runs ledger due where
  orderly := by
    rw [stage_modifyMount]
    exact h.orderly.modify (performer_mem member) (keeps.running _) (keeps.destroyed _)
      (keeps.pending _)
  requests := h.requests
  keys_nodup := h.keys_nodup
  mounted := by
    intro e entered
    obtain ⟨o, there, describes⟩ := h.mounted e entered
    by_cases own : o.key = m.key
    · exact ⟨_, own ▸ mem_modifyMount_self there f, describes.change keeps⟩
    · exact ⟨o, mem_modifyMount_of_ne there own f, describes⟩
  waiting := h.waiting

/-! ## Taking down -/

theorem mem_filter_key {e : Entry} {key : Nat} :
    e ∈ ledger.filter (·.key != key) ↔ e ∈ ledger ∧ e.key ≠ key := by
  simp

theorem lastKey_destroyMount (p : Page) (m : Mount) : (p.destroyMount m).lastKey = p.lastKey := by
  rw [destroyMount_eq]
  rfl

theorem lastKey_dropMount (p : Page) (m : Mount) : (p.dropMount m).lastKey = p.lastKey :=
  lastKey_destroyMount p m

theorem Runs.destroyMount (h : p.Runs ledger []) (member : m ∈ p.mounts) :
    (p.destroyMount m).Runs (ledger.filter (·.key != m.key)) [] where
  orderly := by
    rw [stage_destroyMount]
    exact h.orderly.destroyPerformer (performer_mem member)
  requests := by
    rw [destroyMount_eq]
    exact h.requests
  keys_nodup := h.keys_nodup.sublist (List.filter_sublist.map _)
  mounted := by
    intro e entered
    obtain ⟨entered, different⟩ := mem_filter_key.mp entered
    obtain ⟨o, there, describes⟩ := h.mounted e entered
    rw [destroyMount_eq]
    exact ⟨o, mem_modifyMount_of_ne there (describes.key ▸ different) _, describes⟩
  waiting := by
    have waiting := h.waiting
    rw [List.append_nil] at waiting ⊢
    rw [owners_destroyMount h.orderly member, waiting, List.filter_map, List.filter_filter,
      List.filter_filter]
    simp only [Function.comp_def, Bool.and_comm]

theorem Runs.dropMount (h : p.Runs ledger []) (member : m ∈ p.mounts) :
    (p.dropMount m).Runs (ledger.filter (·.key != m.key)) [] where
  orderly := by
    rw [stage_dropMount]
    exact h.orderly.dropPerformer (performer_mem member)
  requests := (h.destroyMount member).requests
  keys_nodup := (h.destroyMount member).keys_nodup
  mounted := by
    intro e entered
    obtain ⟨o, there, describes⟩ := (h.destroyMount member).mounted e entered
    refine ⟨o, List.mem_filter.mpr ⟨there, ?_⟩, describes⟩
    simpa [describes.key] using (mem_filter_key.mp entered).2
  waiting := (h.destroyMount member).waiting

/-! ## Frames -/

theorem isAttached_modifyElement (p : Page) (key : Nat) {f : ElementState → ElementState}
    (same : ∀ state, (f state).isConnected = state.isConnected) :
    (p.modifyElement key f).isAttached = p.isAttached := by
  funext other
  simp only [isAttached, element?, modifyElement, ElementTree.modifyState, ElementTree.modify,
    ElementTree.get?, List.getElem?_modify]
  by_cases own : key = other <;> cases p.tree.elements[other]? <;> simp [own, same]

theorem isAttached_runFrame (h : p.frameFailure = none) : (p.runFrame m).isAttached = p.isAttached := by
  cases draws : m.animator.draws ((p.element? m.canvas).any (·.isConnected)) with
  | true =>
      rw [runFrame_of_draws h draws]
      exact p.isAttached_modifyElement m.canvas fun _ => rfl
  | false =>
      rw [runFrame_of_not_draws draws]
      rfl

def fired (isAttached : Nat → Bool) (key : Nat) (ledger : List Entry) : List Entry :=
  ledger.map fun e => if e.key = key then e.afterFrame isAttached else e

theorem Runs.exists_due {key : Nat} (h : p.Runs ledger (key :: due)) :
    ∃ e ∈ ledger, e.key = key ∧ e.isLooping = true := by
  have member : key ∈ (ledger.filter (·.isLooping)).map (·.key) := by
    rw [← h.waiting]
    simp
  obtain ⟨e, looping, rfl⟩ := List.mem_map.mp member
  obtain ⟨entered, looping⟩ := List.mem_filter.mp looping
  exact ⟨e, entered, rfl, looping⟩

theorem keys_fired (isAttached : Nat → Bool) (key : Nat) (ledger : List Entry) :
    (fired isAttached key ledger).map (·.key) = ledger.map (·.key) := by
  simp only [fired, List.map_map]
  refine List.map_congr_left fun e _ => ?_
  simp only [Function.comp_apply]
  split <;> rfl

theorem Runs.nodup_looping (h : p.Runs ledger due) :
    ((ledger.filter (·.isLooping)).map (·.key)).Nodup :=
  h.keys_nodup.sublist (List.filter_sublist.map _)

theorem Runs.mounted_fired (h : p.Runs ledger due) {e : Entry} (entered : e ∈ ledger)
    (there : m ∈ p.mounts) (own : m.key = e.key) {isAttached : Nat → Bool}
    {f : Animator (Animation Generator) → Animator (Animation Generator)}
    (describes : (e.afterFrame isAttached).Describes { m with animator := f m.animator }) :
    ∀ o ∈ fired isAttached e.key ledger, ∃ n ∈ (p.modifyMount m.key f).mounts, o.Describes n := by
  intro o member
  obtain ⟨o, old, rfl⟩ := List.mem_map.mp member
  by_cases same : o.key = e.key
  · obtain rfl := h.eq_of_key old entered same
    rw [if_pos rfl]
    exact ⟨_, mem_modifyMount_self there f, describes⟩
  · rw [if_neg same]
    obtain ⟨n, known, describes⟩ := h.mounted o old
    refine ⟨n, mem_modifyMount_of_ne known ?_ f, describes⟩
    rw [describes.key, own]
    exact same

theorem Runs.fired_eq_self (h : p.Runs ledger due) {e : Entry} (entered : e ∈ ledger)
    {isAttached : Nat → Bool} (attached : isAttached e.canvas = true) :
    fired isAttached e.key ledger = ledger := by
  refine (List.map_congr_left fun o old => ?_).trans (List.map_id _)
  split
  next same =>
    obtain rfl := h.eq_of_key old entered same
    simp [Entry.afterFrame, attached]
  next => rfl

theorem Runs.looping_fired (h : p.Runs ledger due) {e : Entry} (entered : e ∈ ledger)
    {isAttached : Nat → Bool} (detached : isAttached e.canvas = false) :
    ((fired isAttached e.key ledger).filter (·.isLooping)).map (·.key) =
      ((ledger.filter (·.isLooping)).map (·.key)).filter (· != e.key) := by
  have keys : (fun o : Entry => o.key) ∘
      (fun o => if o.key = e.key then o.afterFrame isAttached else o) = (·.key) := by
    funext o
    simp only [Function.comp_apply]
    split <;> rfl
  rw [fired, List.filter_map, List.map_map, keys, List.filter_map, List.filter_filter]
  refine congrArg _ (List.filter_congr fun o old => ?_)
  by_cases same : o.key = e.key
  · obtain rfl := h.eq_of_key old entered same
    simp [Entry.afterFrame, detached]
  · simp [same]

theorem Runs.orderly_performer {e : Entry} (h : p.Runs ledger (e.key :: due))
    (describes : e.Describes m) : p.stage.Orderly (m.performer.key :: due) := by
  simpa [Mount.performer, describes.key] using h.orderly

section

variable {e : Entry} (h : p.Runs ledger (e.key :: due)) (entered : e ∈ ledger) (there : m ∈ p.mounts)
  (describes : e.Describes m) {isAttached : Nat → Bool}

include h entered there describes

theorem Runs.drawn (looping : e.isLooping = true) (attached : isAttached e.canvas = true)
    (tree : ElementTree) :
    (({ p with tree, frames := (p.frames.request m.key).2 } : Page).modifyMount m.key
      (·.drawn (p.frames.last + 1))).Runs (fired isAttached e.key ledger) due where
  orderly := by
    rw [stage_modifyMount]
    exact (h.orderly_performer describes).drawn (performer_mem there)
      (describes.running.trans looping) describes.alive
  requests := h.requests
  keys_nodup := by
    rw [keys_fired]
    exact h.keys_nodup
  mounted := by
    refine h.mounted_fired (f := (·.drawn (p.frames.last + 1))) entered there describes.key
      ⟨describes.key, describes.canvas, describes.alive, ?_⟩
    simp [Entry.afterFrame, attached, Animator.drawn, describes.running]
  waiting := by
    rw [h.fired_eq_self entered attached, ← h.waiting]
    change (p.frames.request m.key).2.owners ++ due = _
    simp [FrameQueue.owners_request, describes.key]

theorem Runs.skipped (detached : isAttached e.canvas = false) :
    (p.modifyMount m.key Animator.skipped).Runs (fired isAttached e.key ledger) due where
  orderly := by
    rw [stage_modifyMount]
    exact (h.orderly_performer describes).skipped (performer_mem there)
  requests := h.requests
  keys_nodup := by
    rw [keys_fired]
    exact h.keys_nodup
  mounted := by
    refine h.mounted_fired entered there describes.key
      ⟨describes.key, describes.canvas, describes.alive, ?_⟩
    simp [Entry.afterFrame, detached, Animator.skipped]
  waiting := by
    have distinct := h.nodup_looping
    rw [← h.waiting, List.nodup_middle, List.nodup_cons] at distinct
    have others : (p.frames.owners ++ due).filter (· != e.key) = p.frames.owners ++ due := by
      rw [List.filter_eq_self]
      rintro key member
      rw [bne_iff_ne]
      rintro rfl
      exact distinct.1 member
    rw [h.looping_fired entered detached, ← h.waiting, List.filter_append,
      List.filter_cons_of_neg (by simp), ← List.filter_append, others]
    rfl

end

theorem Runs.fire {key : Nat} (h : p.Runs ledger (key :: due)) :
    (p.fire key).Runs (fired p.isAttached key ledger) due ∧ (p.fire key).isAttached = p.isAttached := by
  obtain ⟨e, entered, rfl, looping⟩ := h.exists_due
  obtain ⟨m, there, describes⟩ := h.mounted e entered
  have draws : m.animator.draws ((p.element? m.canvas).any (·.isConnected)) =
      p.isAttached e.canvas := by
    simp [Animator.draws, describes.running, looping, describes.alive, describes.canvas, isAttached]
  rw [Page.fire, (mount?_eq_some h.orderly).mpr ⟨there, describes.key⟩]
  refine ⟨?_, isAttached_runFrame h.requests⟩
  cases attached : p.isAttached e.canvas with
  | true =>
      simp only [runFrame_of_draws h.requests (draws.trans attached)]
      exact h.drawn entered there describes looping attached _
  | false =>
      simp only [runFrame_of_not_draws (draws.trans attached)]
      exact h.skipped entered there describes attached

theorem Runs.fireAll (h : p.Runs ledger due) :
    (due.foldl Page.fire p).Runs
      (ledger.map fun e => if e.key ∈ due then e.afterFrame p.isAttached else e) [] := by
  induction due generalizing p ledger with
  | nil => simpa using h
  | cons key due ih =>
      -- The call leaves the canvases where they are, so the rest finds the same ones detached.
      obtain ⟨runs, attached⟩ := h.fire
      have rest := ih runs
      rw [attached, fired, List.map_map] at rest
      rw [List.foldl_cons]
      convert rest using 1
      refine List.map_congr_left fun e _ => ?_
      by_cases own : e.key = key <;> by_cases later : e.key ∈ due <;>
        simp [own, later, Entry.afterFrame]

theorem Runs.beginTick (h : p.Runs ledger []) (time : Float) :
    ({ p with frames := (p.frames.beginTick time).2 } : Page).Runs ledger p.frames.owners where
  orderly := by
    have orderly := h.orderly.beginTick time
    rwa [List.append_nil] at orderly
  requests := h.requests
  keys_nodup := h.keys_nodup
  mounted := h.mounted
  waiting := by
    have waiting := h.waiting
    rwa [List.append_nil] at waiting

theorem Runs.frame (h : p.Runs ledger []) (time : Float) :
    (p.frame time).2.Runs (ledger.map (·.afterFrame p.isAttached)) [] := by
  have all := (h.beginTick time).fireAll
  have same : (ledger.map fun e => if e.key ∈ p.frames.owners then e.afterFrame p.isAttached else e) =
      ledger.map (·.afterFrame p.isAttached) := by
    refine List.map_congr_left fun e entered => ?_
    -- Who does not wait is not called, and has no loop that could end.
    cases looping : e.isLooping with
    | false => rw [Entry.afterFrame_of_still looping, ite_self]
    | true =>
        have waits : e.key ∈ p.frames.owners ++ [] :=
          h.waiting ▸ List.mem_map_of_mem (List.mem_filter.mpr ⟨entered, looping⟩)
        rw [List.append_nil] at waits
        rw [if_pos waits]
  rw [← same]
  exact all

/-! ## Listeners -/

structure Matches (p : Page) (ledger : List Entry) : Prop where
  runs : p.Runs ledger []
  listeners : p.listeners = ledger.flatMap (·.listeners)

theorem filter_listeners (ledger : List Entry) (key : Nat) :
    (ledger.flatMap (·.listeners)).filter (·.owner != key) =
      (ledger.filter (·.key != key)).flatMap (·.listeners) := by
  induction ledger with
  | nil => rfl
  | cons e ledger ih =>
      have own : e.listeners.filter (·.owner != key) = if e.key = key then [] else e.listeners := by
        split
        next same =>
          rw [List.filter_eq_nil_iff]
          intro l member
          simp [Entry.owner_of_mem_listeners member, same]
        next different =>
          rw [List.filter_eq_self]
          intro l member
          simp [Entry.owner_of_mem_listeners member, different]
      rw [List.flatMap_cons, List.filter_append, ih, own]
      by_cases same : e.key = key <;> simp [same]

theorem listeners_destroyMount (p : Page) (m : Mount) :
    (p.destroyMount m).listeners = p.listeners.filter (·.owner != m.key) := by
  rw [destroyMount_eq]
  rfl

theorem Matches.destroyMount (h : p.Matches ledger) (member : m ∈ p.mounts) :
    (p.destroyMount m).Matches (ledger.filter (·.key != m.key)) where
  runs := h.runs.destroyMount member
  listeners := by rw [listeners_destroyMount, h.listeners, filter_listeners]

theorem Matches.dropMount (h : p.Matches ledger) (member : m ∈ p.mounts) :
    (p.dropMount m).Matches (ledger.filter (·.key != m.key)) where
  runs := h.runs.dropMount member
  listeners := (h.destroyMount member).listeners

theorem fire_frame (p : Page) (key : Nat) :
    (p.fire key).listeners = p.listeners ∧ (p.fire key).lastKey = p.lastKey := by
  have asked (q : Page) (owner : Nat) : (q.requestFrame owner).2.listeners = q.listeners ∧
      (q.requestFrame owner).2.lastKey = q.lastKey := by
    unfold requestFrame
    split <;> exact ⟨rfl, rfl⟩
  unfold Page.fire runFrame
  split
  next =>
    split
    · exact asked _ _
    · exact ⟨rfl, rfl⟩
  next => exact ⟨rfl, rfl⟩

theorem fireAll_frame (due : List Nat) (p : Page) : (due.foldl Page.fire p).listeners = p.listeners ∧
    (due.foldl Page.fire p).lastKey = p.lastKey := by
  induction due generalizing p with
  | nil => exact ⟨rfl, rfl⟩
  | cons key due ih =>
      obtain ⟨listeners, lastKey⟩ := fire_frame p key
      rw [List.foldl_cons, (ih _).1, (ih _).2]
      exact ⟨listeners, lastKey⟩

theorem Matches.frame (h : p.Matches ledger) (time : Float) :
    (p.frame time).2.Matches (ledger.map (·.afterFrame p.isAttached)) where
  runs := h.runs.frame time
  listeners := by
    rw [List.flatMap_map]
    exact (fireAll_frame _ _).1.trans h.listeners

theorem Matches.modifyMount (h : p.Matches ledger) (member : m ∈ p.mounts)
    {f : Animator (Animation Generator) → Animator (Animation Generator)}
    (keeps : Animator.KeepsLoop f) : (p.modifyMount m.key f).Matches ledger :=
  ⟨h.runs.modifyMount member keeps, h.listeners⟩

theorem Matches.congr (h : p.Matches ledger) {q : Page} (requests : q.frameFailure = none)
    (frames : q.frames = p.frames) (mounts : q.mounts = p.mounts) (lastKey : q.lastKey = p.lastKey)
    (listeners : q.listeners = p.listeners) : q.Matches ledger :=
  ⟨h.runs.congr requests frames mounts lastKey, listeners.trans h.listeners⟩

theorem Matches.withTree (h : p.Matches ledger) (tree : ElementTree) :
    ({ p with tree } : Page).Matches ledger :=
  h.congr h.runs.requests rfl rfl rfl rfl

theorem Matches.set (h : p.Matches ledger) {setting : Setting}
    (requests : ∀ reason, setting ≠ .frameFailure (some reason)) :
    (p.set setting).Matches ledger := by
  cases setting with
  | frameFailure reason =>
      cases reason with
      | none => exact h.congr rfl rfl rfl rfl rfl
      | some reason => exact absurd rfl (requests reason)
  | _ => exact h.congr h.runs.requests rfl rfl rfl rfl

theorem Matches.deliver (h : p.Matches ledger) (client : Option Point) (l : Listener) :
    (p.deliver client l).Matches ledger := by
  unfold Page.deliver
  split
  next => exact h
  next m found =>
    have member : m ∈ p.mounts := ((mount?_eq_some h.runs.orderly).mp found).1
    dsimp only
    split
    next =>
      split
      next => exact h
      next =>
        have measured : (p.measure m.canvas).Matches ledger := h.withTree _
        exact measured.modifyMount member (Animator.keepsLoop_resize _)
    next => exact h.modifyMount member (Animator.keepsLoop_withScene _)
    next => exact h.modifyMount member (Animator.keepsLoop_withScene _)
    next => exact h.modifyMount member (Animator.keepsLoop_withScene _)
    next => exact h
    next => exact h

theorem lastKey_deliver (p : Page) (client : Option Point) (l : Listener) :
    (p.deliver client l).lastKey = p.lastKey := by
  unfold Page.deliver
  split
  next => rfl
  next m found =>
    dsimp only
    split
    next => split <;> rfl
    all_goals rfl

theorem Matches.deliverAll (h : p.Matches ledger) (client : Option Point) (called : List Listener) :
    (called.foldl (Page.deliver client) p).Matches ledger ∧
      (called.foldl (Page.deliver client) p).lastKey = p.lastKey := by
  induction called generalizing p with
  | nil => exact ⟨h, rfl⟩
  | cons l called ih =>
      obtain ⟨rest, lastKey⟩ := ih (h.deliver client l)
      exact ⟨rest, lastKey.trans (p.lastKey_deliver client l)⟩

theorem Matches.dispatch (h : p.Matches ledger) (target : EventTarget) (type : String)
    (client : Option Point) : (p.dispatch target type client).2.Matches ledger ∧
      (p.dispatch target type client).2.lastKey = p.lastKey := by
  unfold Page.dispatch
  split
  · exact ⟨h, rfl⟩
  · exact h.deliverAll client _

end AnimatedCanvas.Page
