import AnimatedCanvas.Proofs.Page.Mounting

/-!
# What animations leave on their page

A site holds its animations by name. Its ledger after a history has an entry for each animation that
was set up and whose holder has been neither destroyed nor dropped since. The page holds the listeners
of these and their requests for frames, and no others (`play_matches_ledger`).
-/

namespace AnimatedCanvas

open Page (Entry Matches Opens)

variable {p q : Page} {ledger : List Entry}

/-! ## Taking down what is held -/

namespace Page

def takeDown (remove : Page → Mount → Page) (p : Page) (keys : List Nat) : Page :=
  keys.foldl (fun p key => (p.mount? key).elim p (remove p)) p

structure Removes (remove : Page → Mount → Page) : Prop where
  entry : ∀ {p ledger m}, p.Matches ledger → m ∈ p.mounts →
    (remove p m).Matches (ledger.filter (·.key != m.key))
  lastKey : ∀ p m, (remove p m).lastKey = p.lastKey

theorem removes_destroyMount : Removes destroyMount := ⟨Matches.destroyMount, lastKey_destroyMount⟩

theorem removes_dropMount : Removes dropMount := ⟨Matches.dropMount, lastKey_dropMount⟩

variable {remove : Page → Mount → Page}

theorem Removes.key (r : Removes remove) (h : p.Matches ledger) (key : Nat) :
    ((p.mount? key).elim p (remove p)).Matches (ledger.filter (·.key != key)) ∧
      ((p.mount? key).elim p (remove p)).lastKey = p.lastKey := by
  cases found : p.mount? key with
  | some m =>
      obtain ⟨member, rfl⟩ := (mount?_eq_some h.runs.orderly).mp found
      exact ⟨r.entry h member, r.lastKey p m⟩
  | none =>
      have absent : ledger.filter (·.key != key) = ledger := by
        rw [List.filter_eq_self]
        intro e entered
        obtain ⟨m, there, describes⟩ := h.runs.mounted e entered
        rw [bne_iff_ne]
        intro own
        have := (mount?_eq_some h.runs.orderly).mpr ⟨there, describes.key.trans own⟩
        simp [found] at this
      rw [absent]
      exact ⟨h, rfl⟩

theorem Removes.takeDown (r : Removes remove) (h : p.Matches ledger) (keys : List Nat) :
    (p.takeDown remove keys).Matches (ledger.filter (·.key ∉ keys)) ∧
      (p.takeDown remove keys).lastKey = p.lastKey := by
  induction keys generalizing p ledger with
  | nil => simpa [Page.takeDown] using h
  | cons key keys ih =>
      obtain ⟨first, lastKey⟩ := r.key h key
      obtain ⟨rest, same⟩ := ih first
      refine ⟨?_, same.trans lastKey⟩
      have both : (ledger.filter (·.key != key)).filter (·.key ∉ keys) =
          ledger.filter (·.key ∉ key :: keys) := by
        rw [List.filter_filter]
        refine List.filter_congr fun e _ => ?_
        rw [Bool.eq_iff_iff]
        simp [and_comm]
      rw [← both]
      exact rest

end Page

/-! ## Holders -/

theorem lookup_filter {β : Type} (fields : List (String × β)) (name other : String) :
    (fields.filter (·.1 != name)).lookup other =
      if other = name then none else fields.lookup other := by
  induction fields with
  | nil => simp
  | cons f fields ih =>
      by_cases own : f.1 = name
      · rw [List.filter_cons_of_neg (by simpa using own), ih]
        split
        next => rfl
        next different => rw [List.lookup_cons, beq_false_of_ne (own ▸ different)]
      · rw [List.filter_cons_of_pos (by simpa using own), List.lookup_cons, List.lookup_cons, ih]
        by_cases here : other = f.1
        · simp [here, own]
        · rw [beq_false_of_ne here]

namespace Site

variable {s : Site} {name : String}

def keysOf (s : Site) (name : String) : List Nat := ((s.holder? name).map Holder.mounts).getD []

theorem page_destroy (s : Site) (name : String) :
    (s.destroy name).page = s.page.takeDown Page.destroyMount (s.keysOf name) := by
  unfold destroy keysOf
  cases s.holder? name <;> rfl

theorem page_drop (s : Site) (name : String) :
    (s.drop name).2.page = s.page.takeDown Page.dropMount (s.keysOf name) := by
  unfold drop keysOf
  cases s.holder? name <;> rfl

theorem page_put (s : Site) (name : String) (holder : Holder) :
    (s.put name holder).page = s.page.takeDown Page.dropMount (s.keysOf name) := by
  unfold put keysOf
  cases s.holder? name <;> rfl

theorem keysOf_destroy (s : Site) (name other : String) :
    (s.destroy name).keysOf other = s.keysOf other := by
  unfold destroy
  cases s.holder? name <;> rfl

theorem keysOf_drop (s : Site) (name other : String) :
    (s.drop name).2.keysOf other = if other = name then [] else s.keysOf other := by
  rw [drop]
  cases found : s.holder? name with
  | some h =>
      simp only [keysOf, holder?, lookup_filter]
      split <;> rfl
  | none =>
      by_cases same : other = name
      · simp [same, keysOf, found]
      · rw [if_neg same]

theorem keysOf_put (s : Site) (name other : String) (holder : Holder) :
    (s.put name holder).keysOf other = if other = name then holder.mounts else s.keysOf other := by
  simp only [put, keysOf, holder?, List.lookup_cons, lookup_filter]
  by_cases same : other = name
  · simp [same]
  · rw [if_neg same, if_neg same, beq_false_of_ne same]

structure Keeps (s : Site) (ledger : List Entry) : Prop where
  page : s.page.Matches ledger
  held : ∀ e ∈ ledger, ∀ name, e.key ∈ s.keysOf name ↔ e.holder = name
  known : ∀ name, ∀ key ∈ s.keysOf name, key ≤ s.page.lastKey

theorem Keeps.not_mem_keysOf (h : s.Keeps ledger) {key : Nat} (new : s.page.lastKey < key)
    (name : String) : key ∉ s.keysOf name := fun member =>
  Nat.not_lt_of_le (h.known name key member) new

theorem Keeps.filter_keysOf (h : s.Keeps ledger) (name : String) :
    ledger.filter (·.key ∉ s.keysOf name) = ledger.filter (·.holder != name) := by
  refine List.filter_congr fun e entered => ?_
  rw [Bool.eq_iff_iff]
  simp [h.held e entered name]

theorem mem_filter_holder {e : Entry} :
    e ∈ ledger.filter (·.holder != name) ↔ e ∈ ledger ∧ e.holder ≠ name := by
  simp

theorem Keeps.onPage (h : s.Keeps ledger) {page : Page} (matched : page.Matches ledger)
    (lastKey : s.page.lastKey ≤ page.lastKey) : ({ s with page } : Site).Keeps ledger :=
  ⟨matched, h.held, fun name key member => Nat.le_trans (h.known name key member) lastKey⟩

theorem Keeps.destroy (h : s.Keeps ledger) (name : String) :
    (s.destroy name).Keeps (ledger.filter (·.holder != name)) := by
  obtain ⟨matched, lastKey⟩ := Page.removes_destroyMount.takeDown h.page (s.keysOf name)
  rw [h.filter_keysOf, ← page_destroy] at matched
  rw [← page_destroy] at lastKey
  refine ⟨matched, fun e entered other => ?_, fun other key member => ?_⟩
  · rw [keysOf_destroy]
    exact h.held e (mem_filter_holder.mp entered).1 other
  · rw [keysOf_destroy] at member
    exact lastKey ▸ h.known other key member

theorem Keeps.drop (h : s.Keeps ledger) (name : String) :
    (s.drop name).2.Keeps (ledger.filter (·.holder != name)) := by
  obtain ⟨matched, lastKey⟩ := Page.removes_dropMount.takeDown h.page (s.keysOf name)
  rw [h.filter_keysOf, ← page_drop] at matched
  rw [← page_drop] at lastKey
  refine ⟨matched, fun e entered other => ?_, fun other key member => ?_⟩
  · obtain ⟨old, different⟩ := mem_filter_holder.mp entered
    rw [keysOf_drop]
    split
    next same => simp [same, different]
    next => exact h.held e old other
  · rw [keysOf_drop] at member
    split at member
    next => cases member
    next => exact lastKey ▸ h.known other key member

section

variable {holder : Holder} {new : List Entry} (h : s.Keeps ledger)
  (opens : s.page.Opens ledger name new holder.mounts q)

include opens in
theorem not_mem_mounts {key : Nat} (old : key ≤ s.page.lastKey) : key ∉ holder.mounts := by
  rw [← opens.keys]
  intro member
  obtain ⟨e, added, rfl⟩ := List.mem_map.mp member
  exact Nat.not_lt_of_le old (opens.later e added)

include h opens

theorem Keeps.matches_put : (({ s with page := q } : Site).put name holder).page.Matches
      (ledger.filter (·.holder != name) ++ new) ∧
    (({ s with page := q } : Site).put name holder).page.lastKey = q.lastKey := by
  obtain ⟨matched, lastKey⟩ := Page.removes_dropMount.takeDown opens.added (s.keysOf name)
  -- The new keys are later than all that were known, so that dropping the old ones spares them.
  have kept : new.filter (·.key ∉ s.keysOf name) = new := by
    rw [List.filter_eq_self]
    intro e member
    rw [decide_eq_true_eq]
    exact h.not_mem_keysOf (opens.later e member) name
  rw [List.filter_append, kept, h.filter_keysOf] at matched
  rw [page_put]
  exact ⟨matched, lastKey⟩

theorem Keeps.put : (({ s with page := q } : Site).put name holder).Keeps
    (ledger.filter (·.holder != name) ++ new) := by
  obtain ⟨matched, lastKey⟩ := h.matches_put opens
  have others : ∀ other, ({ s with page := q } : Site).keysOf other = s.keysOf other := fun _ => rfl
  refine ⟨matched, fun e entered other => ?_, fun other key member => ?_⟩
  · rw [keysOf_put, others]
    rcases List.mem_append.mp entered with old | added
    · obtain ⟨old, different⟩ := mem_filter_holder.mp old
      split
      next same =>
        have absent := not_mem_mounts opens (h.page.runs.key_le old)
        simp [same, absent, different]
      next => exact h.held e old other
    · have own : e.key ∈ holder.mounts := opens.keys ▸ List.mem_map_of_mem added
      have named := opens.named e added
      split
      next same => simp [own, same, named]
      next different =>
        have absent := h.not_mem_keysOf (opens.later e added) other
        simp [absent, named, Ne.symm different]
  · rw [lastKey]
    rw [keysOf_put, others] at member
    split at member
    next =>
      rw [← opens.keys] at member
      obtain ⟨e, added, rfl⟩ := List.mem_map.mp member
      exact opens.added.runs.key_le (List.mem_append_right _ added)
    next => exact Nat.le_trans (h.known other key member) opens.lastKey_le

end

/-! ## Operations -/

/-- What can be done on a page with animations. The elements change in any way: they are moved, detached
or forgotten. -/
inductive Operation where
  | mount (name : String) (effect : Effect) (id : String) (document : Option String)
  | mountEffects (name : String)
  | putNothing (name : String)
  | destroy (name : String)
  | drop (name : String)
  | dispatch (target : EventTarget) (type : String) (client : Option Point)
  | frame (time : Float)
  | set (setting : Page.Setting)
  | rearrange (change : ElementTree → ElementTree)

def operate (s : Site) : Operation → Site
  | .mount name effect id document => (s.mount name effect id document).2
  | .mountEffects name => s.mountEffects name
  | .putNothing name => s.putNothing name
  | .destroy name => s.destroy name
  | .drop name => (s.drop name).2
  | .dispatch target type client => { s with page := (s.page.dispatch target type client).2 }
  | .frame time => { s with page := (s.page.frame time).2 }
  | .set setting => { s with page := s.page.set setting }
  | .rearrange change => { s with page := { s.page with tree := change s.page.tree } }

def play (s : Site) (operations : List Operation) : Site := operations.foldl operate s

/-- The ledger after an operation. An animation that is set up under a name replaces those that the name
held before, one that fails changes nothing. -/
def record (s : Site) (ledger : List Entry) : Operation → List Entry
  | .mount name effect id document =>
    match s.page.opened name effect id document with
    | some e => ledger.filter (·.holder != name) ++ [e]
    | none => ledger
  | .mountEffects name =>
    ledger.filter (·.holder != name) ++ Page.openedAll name Effect.all s.page
  | .putNothing name => ledger.filter (·.holder != name)
  | .destroy name => ledger.filter (·.holder != name)
  | .drop name => ledger.filter (·.holder != name)
  | .frame _ => ledger.map (·.afterFrame s.page.isAttached)
  | _ => ledger

def ledgerAfter : Site → List Entry → List Operation → List Entry
  | _, ledger, [] => ledger
  | s, ledger, operation :: rest =>
    ledgerAfter (s.operate operation) (s.record ledger operation) rest

theorem Keeps.mount (h : s.Keeps ledger) (name : String) (effect : Effect) (id : String)
    (document : Option String) :
    (s.mount name effect id document).2.Keeps (s.record ledger (.mount name effect id document)) := by
  have attempt := h.page.mountEffect name effect id document
  have opens := attempt.opens fun e => Page.holder_of_opened
  simp only [Site.mount, record]
  generalize s.page.mountEffect effect id document = outcome at attempt opens ⊢
  generalize s.page.opened name effect id document = entry at attempt opens ⊢
  cases attempt with
  | failed error still pending lastKey => exact h.onPage still lastKey
  | mounted e next added lastKey => exact h.put opens

theorem Keeps.frame (h : s.Keeps ledger) (time : Float) :
    ({ s with page := (s.page.frame time).2 } : Site).Keeps
      (ledger.map (·.afterFrame s.page.isAttached)) where
  page := h.page.frame time
  held := by
    intro e entered
    obtain ⟨o, old, rfl⟩ := List.mem_map.mp entered
    exact h.held o old
  known := by
    intro name key member
    have lastKey : (s.page.frame time).2.lastKey = s.page.lastKey := (Page.fireAll_frame _ _).2
    exact lastKey ▸ h.known name key member

theorem Keeps.operate (h : s.Keeps ledger) {operation : Operation}
    (requests : ∀ reason, operation ≠ .set (.frameFailure (some reason))) :
    (s.operate operation).Keeps (s.record ledger operation) := by
  cases operation with
  | mount name effect id document => exact h.mount name effect id document
  | mountEffects name => exact h.put (h.page.mountEffects name)
  | putNothing name =>
      have put : (s.put name (.effects [])).Keeps (ledger.filter (·.holder != name) ++ []) :=
        h.put (h.page.opens_nothing name)
      rwa [List.append_nil] at put
  | destroy name => exact h.destroy name
  | drop name => exact h.drop name
  | dispatch target type client =>
      obtain ⟨matched, lastKey⟩ := h.page.dispatch target type client
      exact h.onPage matched (Nat.le_of_eq lastKey.symm)
  | frame time => exact h.frame time
  | set setting =>
      have lastKey : (s.page.set setting).lastKey = s.page.lastKey := by cases setting <;> rfl
      refine h.onPage (h.page.set fun reason same => ?_) (Nat.le_of_eq lastKey.symm)
      exact requests reason (congrArg Operation.set same)
  | rearrange change => exact h.onPage (h.page.withTree _) (Nat.le_refl _)

theorem Keeps.play (h : s.Keeps ledger) (operations : List Operation)
    (requests : ∀ reason, .set (.frameFailure (some reason)) ∉ operations) :
    (s.play operations).Keeps (s.ledgerAfter ledger operations) := by
  induction operations generalizing s ledger with
  | nil => exact h
  | cons operation rest ih =>
      refine ih (h.operate fun reason same => ?_) fun reason member => ?_
      · exact requests reason (same ▸ List.mem_cons_self)
      · exact requests reason (List.mem_cons_of_mem _ member)

theorem keeps_ofPage (tree : ElementTree) : (ofPage { tree }).Keeps [] where
  page := {
    runs := {
      orderly := Stage.orderly_withSurfaces []
      requests := rfl
      keys_nodup := List.nodup_nil
      mounted := by simp
      waiting := rfl }
    listeners := rfl }
  held := by simp
  known := by simp [keysOf, holder?, ofPage]

theorem Keeps.opened_or_error (h : s.Keeps ledger) (name : String) (effect : Effect) (id : String)
    (document : Option String) :
    ((s.mount name effect id document).1 = none ↔
      (s.page.opened name effect id document).isSome = true) ∧
    ∀ error, (s.mount name effect id document).1 = some error →
      (s.mount name effect id document).2.page.listeners = s.page.listeners ∧
        (s.mount name effect id document).2.page.frames.pending = s.page.frames.pending := by
  have attempt := h.page.mountEffect name effect id document
  simp only [Site.mount]
  generalize s.page.mountEffect effect id document = outcome at attempt ⊢
  generalize s.page.opened name effect id document = entry at attempt ⊢
  cases attempt with
  | failed error still pending lastKey =>
      exact ⟨by simp, fun _ _ => ⟨still.listeners.trans h.page.listeners.symm, pending⟩⟩
  | mounted e next added lastKey => exact ⟨by simp, nofun⟩

/-- After any history in which frames can be asked for, the listeners are those of the animations that
have been set up and whose holders have been neither destroyed nor dropped, and of these the ones that
no frame has found on a detached canvas wait for one frame each. An animation that cannot be set up
leaves nothing behind. -/
theorem play_matches_ledger (tree : ElementTree) (operations : List Operation)
    (requests : ∀ reason, .set (.frameFailure (some reason)) ∉ operations) :
    let s := (ofPage { tree }).play operations
    let ledger := (ofPage { tree }).ledgerAfter [] operations
    s.page.listeners = ledger.flatMap (·.listeners) ∧
      s.page.frames.owners = (ledger.filter (·.isLooping)).map (·.key) ∧
      (ledger.map (·.key)).Nodup ∧
      ∀ name effect id document,
        ((s.mount name effect id document).1 = none ↔
          (s.page.opened name effect id document).isSome = true) ∧
        ∀ error, (s.mount name effect id document).1 = some error →
          (s.mount name effect id document).2.page.listeners = s.page.listeners ∧
            (s.mount name effect id document).2.page.frames.pending = s.page.frames.pending := by
  intro s ledger
  have keeps : s.Keeps ledger := (keeps_ofPage tree).play operations requests
  have waiting := keeps.page.runs.waiting
  rw [List.append_nil] at waiting
  exact ⟨keeps.page.listeners, waiting, keeps.page.runs.keys_nodup, keeps.opened_or_error⟩

def twoCanvases : ElementTree :=
  .ofMarkup [.element (some "circuit-canvas") { tag := "canvas" } [],
    .element (some "hero-canvas") { tag := "canvas" } []]

def refusedAndDetached : List Operation :=
  [.mount "circuit" .circuit "circuit-canvas" none, .mount "hero" .hero "hero-canvas" none,
    .set (.refusal fun _ signal => if signal = .click then some "refused" else none),
    .mount "quantum" .quantum "hero-canvas" none, .frame 16.0,
    .rearrange (·.modifyState 0 fun state => { state with isConnected := false }), .frame 33.0]

theorem play_matches_ledger_refused :
    let s := (ofPage { tree := twoCanvases }).play refusedAndDetached
    (∀ reason, .set (.frameFailure (some reason)) ∉ refusedAndDetached) ∧
      s.page.listeners = [⟨.window, .resize, 1⟩, ⟨.window, .resize, 2⟩,
        ⟨.element 1, .pointerMove, 2⟩, ⟨.element 1, .click, 2⟩, ⟨.element 1, .pointerLeave, 2⟩] ∧
      s.page.frames.owners = [2] := by
  have requests : ∀ reason, .set (.frameFailure (some reason)) ∉ refusedAndDetached := by
    simp [refusedAndDetached]
  have ledger : (ofPage { tree := twoCanvases }).ledgerAfter [] refusedAndDetached =
      [⟨"circuit", 1, 0, false, false⟩, ⟨"hero", 2, 1, true, true⟩] := by
    decide +kernel
  obtain ⟨listeners, owners, -, -⟩ := play_matches_ledger twoCanvases refusedAndDetached requests
  rw [ledger] at listeners owners
  exact ⟨requests, listeners, owners⟩

end Site
end AnimatedCanvas
