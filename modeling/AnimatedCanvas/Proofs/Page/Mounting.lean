import AnimatedCanvas.Page.Effects
import AnimatedCanvas.Proofs.Page.Ledger

namespace AnimatedCanvas

def Effect.configFor (effect : Effect) : Option String → Except ConfigError AnimationConfig
  | none => .ok effect.config
  | some document => effect.configWith document

namespace Page

variable {p q : Page} {m : Mount} {ledger : List Entry} {e : Entry}

theorem listen_cases (p : Page) (listeners : List Listener) :
    p.listen listeners = (none, { p with listeners := p.listeners ++ listeners }) ∨
      ∃ value taken, taken <+: listeners ∧
        p.listen listeners = (some value, { p with listeners := p.listeners ++ taken }) := by
  induction listeners generalizing p with
  | nil => exact .inl (by simp [listen])
  | cons l rest ih =>
      cases refused : p.refusal l.target l.signal with
      | some value => exact .inr ⟨value, [], List.nil_prefix, by simp [listen, refused]⟩
      | none =>
          rcases ih { p with listeners := p.listeners ++ [l] } with all | ⟨value, taken, start, some⟩
          · exact .inl (by simp [listen, refused, all])
          · refine .inr ⟨value, l :: taken, List.cons_prefix_cons.mpr ⟨rfl, start⟩, ?_⟩
            simp [listen, refused, some]

theorem find?_of_openCanvas {id : String} {canvas : Nat} (h : p.openCanvas id = .ok canvas) :
    p.tree.find? id = some canvas := by
  unfold openCanvas at h
  split at h
  next => cases h
  next key found =>
    split at h
    next => exact found.trans (congrArg some (Except.ok.inj h))
    next => cases h

theorem mount_cases (p : Page) (id : String) (config : AnimationConfig) :
    (∃ error tree, p.mount id config = (.error error, { p with tree })) ∨
      ∃ canvas tree animation size, p.tree.find? id = some canvas ∧
        let (m, q) := ({ p with tree } : Page).addMount canvas (.create id animation size)
        p.mount id config = q.addListeners m config.isInteractive := by
  unfold mount
  split
  next => exact .inl ⟨_, p.tree, rfl⟩
  split
  next => exact .inl ⟨_, p.tree, rfl⟩
  split
  next => exact .inl ⟨_, p.tree, rfl⟩
  next canvas opened =>
    dsimp only
    split
    next => exact .inl ⟨_, _, rfl⟩
    next animation built => exact .inr ⟨canvas, _, animation, _, find?_of_openCanvas opened, rfl⟩

/-- A page to which an animation has been added that does not listen yet, and its entry. -/
structure Newcomer (p : Page) (ledger : List Entry) (e : Entry) (m : Mount) (q : Page) : Prop where
  next : e.key = p.lastKey + 1
  key : m.key = e.key
  canvas : m.canvas = e.canvas
  pending : m.animator.pending = some (p.frames.last + 1)
  there : m ∈ q.mounts
  runs : q.Runs (ledger ++ [e]) []
  frames : q.frames = (p.frames.request e.key).2
  listeners : q.listeners = p.listeners
  lastKey : q.lastKey = p.lastKey + 1

theorem Runs.addMount (h : p.Runs ledger []) (next : e.key = p.lastKey + 1)
    (looping : e.isLooping = true) (id : String) (animation : Animation Generator) (size : Size) :
    let (m, q) := p.addMount e.canvas (.create id animation size)
    p.Newcomer ledger e m q := by
  have orderly : (p.stage.entered "" (.create id animation size) true).Orderly [] :=
    h.orderly.entered "" rfl rfl true
  rw [← stage_addMount h.orderly h.requests e.canvas rfl] at orderly
  rw [addMount_of_requests h.requests, ← next] at orderly ⊢
  refine ⟨next, next.symm, rfl, rfl, List.mem_append_right _ (List.mem_singleton_self _),
    ⟨orderly, h.requests, ?_, ?_, ?_⟩, rfl, rfl, next⟩
  · rw [List.map_append]
    refine h.keys_nodup.append (List.nodup_singleton _) ?_
    intro key old new
    obtain ⟨o, entered, rfl⟩ := List.mem_map.mp old
    have := h.key_le entered
    have own : o.key = e.key := List.mem_singleton.mp new
    omega
  · intro o entered
    rcases List.mem_append.mp entered with old | new
    · obtain ⟨m, there, describes⟩ := h.mounted o old
      exact ⟨m, List.mem_append_left _ there, describes⟩
    · obtain rfl := List.mem_singleton.mp new
      exact ⟨_, List.mem_append_right _ (List.mem_singleton_self _), next.symm, rfl, rfl, looping.symm⟩
  · have waiting := h.waiting
    rw [List.append_nil] at waiting ⊢
    rw [FrameQueue.owners_request, waiting]
    simp [looping]

theorem listenersOf_eq (key : m.key = e.key) (canvas : m.canvas = e.canvas) :
    listenersOf m e.isInteractive = e.listeners := by
  simp only [listenersOf, Entry.listeners, key, canvas]

theorem Newcomer.matches_listening (h : p.Matches ledger)
    (newcomer : p.Newcomer ledger e m q) :
    ({ q with listeners := q.listeners ++ e.listeners } : Page).Matches (ledger ++ [e]) where
  runs := newcomer.runs.congr newcomer.runs.requests rfl rfl rfl
  listeners := by
    rw [List.flatMap_append, List.flatMap_singleton, ← h.listeners, ← newcomer.listeners]

theorem Newcomer.matches_dropped (h : p.Matches ledger)
    (newcomer : p.Newcomer ledger e m q) {taken : List Listener}
    (own : ∀ l ∈ taken, l.owner = e.key) :
    let dropped := ({ q with listeners := q.listeners ++ taken } : Page).dropMount m
    dropped.Matches ledger ∧ dropped.frames.pending = p.frames.pending := by
  have others : ledger.filter (·.key != e.key) = ledger := by
    rw [List.filter_eq_self]
    intro o entered
    have := h.runs.key_le entered
    have := newcomer.next
    rw [bne_iff_ne]
    omega
  have silent : taken.filter (·.owner != e.key) = [] := by
    rw [List.filter_eq_nil_iff]
    intro l member
    simp [own l member]
  have runs : ({ q with listeners := q.listeners ++ taken } : Page).Runs (ledger ++ [e]) [] :=
    newcomer.runs.congr newcomer.runs.requests rfl rfl rfl
  refine ⟨⟨?_, ?_⟩, ?_⟩
  · have dropped := runs.dropMount newcomer.there
    rw [newcomer.key, List.filter_append, others] at dropped
    simpa using dropped
  · rw [← others, ← filter_listeners, ← h.listeners, ← newcomer.listeners]
    change (Page.destroyMount _ m).listeners = _
    rw [listeners_destroyMount, newcomer.key, List.filter_append, silent, List.append_nil]
  · change (Page.destroyMount _ m).frames.pending = _
    rw [destroyMount_eq]
    simp only [newcomer.pending, newcomer.frames]
    exact h.runs.orderly.fresh.pending_cancel_request e.key

inductive Attempt (p : Page) (ledger : List Entry) :
    Except MountError Nat × Page → Option Entry → Prop
  | failed (error : MountError) {q : Page} (still : q.Matches ledger)
      (pending : q.frames.pending = p.frames.pending) (lastKey : p.lastKey ≤ q.lastKey) :
      Attempt p ledger (.error error, q) none
  | mounted (e : Entry) {q : Page} (next : e.key = p.lastKey + 1)
      (added : q.Matches (ledger ++ [e])) (lastKey : q.lastKey = p.lastKey + 1) :
      Attempt p ledger (.ok e.key, q) (some e)

theorem Attempt.toOption {outcome : Except MountError Nat × Page} {entry : Option Entry}
    (h : p.Attempt ledger outcome entry) : outcome.1.toOption = entry.map (·.key) := by
  cases h <;> rfl

theorem Attempt.of_withTree {outcome : Except MountError Nat × Page} {entry : Option Entry}
    {tree : ElementTree} (h : ({ p with tree } : Page).Attempt ledger outcome entry) :
    p.Attempt ledger outcome entry := by
  cases h with
  | failed error still pending lastKey => exact .failed error still pending lastKey
  | mounted e next added lastKey => exact .mounted e next added lastKey

theorem Newcomer.attempt_addListeners (h : p.Matches ledger)
    (newcomer : p.Newcomer ledger e m q) : ∃ entry,
      p.Attempt ledger (q.addListeners m e.isInteractive) entry ∧ ∀ o ∈ entry, o = e := by
  rw [Page.addListeners, listenersOf_eq newcomer.key newcomer.canvas]
  rcases q.listen_cases e.listeners with all | ⟨value, taken, start, some⟩
  · rw [all]
    have listening := newcomer.matches_listening h
    refine ⟨some e, newcomer.key ▸ .mounted e newcomer.next listening newcomer.lastKey, ?_⟩
    rintro o ⟨⟩
    rfl
  · -- The refused animation goes with the listeners that it has got; its key is not given again.
    rw [some]
    have own : ∀ l ∈ taken, l.owner = e.key := fun l member =>
      Entry.owner_of_mem_listeners (start.mem member)
    obtain ⟨still, pending⟩ := newcomer.matches_dropped h own
    refine ⟨none, .failed _ still pending ?_, by simp⟩
    rw [lastKey_dropMount, newcomer.lastKey]
    exact Nat.le_succ _

def entryOf (p : Page) (holder id : String) (config : AnimationConfig) : Option Entry := do
  let canvas ← p.tree.find? id
  let key ← (p.mount id config).1.toOption
  return { holder, key, canvas, isInteractive := config.isInteractive, isLooping := true }

theorem Matches.mount (h : p.Matches ledger) (holder id : String) (config : AnimationConfig) :
    p.Attempt ledger (p.mount id config) (p.entryOf holder id config) := by
  rcases p.mount_cases id config with
    ⟨error, tree, failed⟩ | ⟨canvas, tree, animation, size, found, added⟩
  · have none : p.entryOf holder id config = none := by
      simp [entryOf, failed, Except.toOption]
    rw [none, failed]
    exact .failed error (h.withTree tree) rfl (Nat.le_refl _)
  · -- The canvas has been measured before, which changes the elements only.
    let e : Entry := ⟨holder, p.lastKey + 1, canvas, config.isInteractive, true⟩
    have matched := h.withTree tree
    have newcomer := matched.runs.addMount (e := e) rfl rfl id animation size
    obtain ⟨entry, attempt, own⟩ := newcomer.attempt_addListeners matched
    have attempt : p.Attempt ledger (p.mount id config) entry := added ▸ attempt.of_withTree
    have due : p.entryOf holder id config = entry := by
      simp only [entryOf, found, attempt.toOption]
      cases entry with
      | none => rfl
      | some o =>
          obtain rfl := own o rfl
          rfl
    rw [due]
    exact attempt

def opened (p : Page) (holder : String) (effect : Effect) (id : String) (document : Option String) :
    Option Entry := do
  let config ← (effect.configFor document).toOption
  p.entryOf holder id config

theorem Matches.mountEffect (h : p.Matches ledger) (holder : String) (effect : Effect) (id : String)
    (document : Option String) : p.Attempt ledger (p.mountEffect effect id document)
      (p.opened holder effect id document) := by
  cases document with
  | none => exact h.mount holder id effect.config
  | some document =>
      simp only [Page.mountEffect, opened, Effect.configFor]
      cases effect.configWith document with
      | ok config => exact h.mount holder id config
      | error error => exact .failed _ h rfl (Nat.le_refl _)

theorem holder_of_opened {holder id : String} {effect : Effect} {document : Option String}
    (member : e ∈ p.opened holder effect id document) : e.holder = holder := by
  simp only [opened, entryOf, Option.mem_def, Option.bind_eq_bind, Option.bind_eq_some_iff] at member
  obtain ⟨config, -, canvas, -, key, -, same⟩ := member
  rw [← Option.some.inj same]

structure Opens (p : Page) (ledger : List Entry) (holder : String) (new : List Entry)
    (keys : List Nat) (q : Page) : Prop where
  added : q.Matches (ledger ++ new)
  keys : new.map (·.key) = keys
  named : ∀ e ∈ new, e.holder = holder
  later : ∀ e ∈ new, p.lastKey < e.key
  lastKey_le : p.lastKey ≤ q.lastKey

theorem Matches.opens_nothing (h : p.Matches ledger) (holder : String) :
    p.Opens ledger holder [] [] p where
  added := by rwa [List.append_nil]
  keys := rfl
  named := by simp
  later := by simp
  lastKey_le := Nat.le_refl _

theorem Opens.trans {r : Page} {holder : String} {new more : List Entry} {keys others : List Nat}
    (h : p.Opens ledger holder new keys q) (rest : q.Opens (ledger ++ new) holder more others r) :
    p.Opens ledger holder (new ++ more) (keys ++ others) r where
  added := by
    rw [← List.append_assoc]
    exact rest.added
  keys := by rw [List.map_append, h.keys, rest.keys]
  named := by
    intro e member
    rcases List.mem_append.mp member with first | second
    · exact h.named e first
    · exact rest.named e second
  later := by
    intro e member
    rcases List.mem_append.mp member with first | second
    · exact h.later e first
    · exact Nat.lt_of_le_of_lt h.lastKey_le (rest.later e second)
  lastKey_le := Nat.le_trans h.lastKey_le rest.lastKey_le

def openedAll (holder : String) : List Effect → Page → List Entry
  | [], _ => []
  | effect :: rest, p =>
    (p.opened holder effect effect.canvasId none).toList ++
      openedAll holder rest (p.tryEffect effect).2

theorem Attempt.opens {outcome : Except MountError Nat × Page} {entry : Option Entry} {holder : String}
    (h : p.Attempt ledger outcome entry) (named : ∀ e ∈ entry, e.holder = holder) :
    p.Opens ledger holder entry.toList outcome.1.toOption.toList outcome.2 := by
  cases h with
  | failed error still pending lastKey =>
      exact ⟨by simpa using still, rfl, by simp, by simp, lastKey⟩
  | mounted e next added lastKey =>
      refine ⟨added, rfl, by simpa using named, ?_, lastKey ▸ Nat.le_succ _⟩
      intro o member
      obtain rfl := List.mem_singleton.mp member
      exact next ▸ Nat.lt_succ_self _

theorem Opens.say {holder : String} {new : List Entry} {keys : List Nat}
    (h : p.Opens ledger holder new keys q) (level : Level) (text : String) :
    p.Opens ledger holder new keys (q.say level text) :=
  ⟨h.added.congr h.added.runs.requests rfl rfl rfl rfl, h.keys, h.named, h.later, h.lastKey_le⟩

theorem Matches.tryEffect (h : p.Matches ledger) (holder : String) (effect : Effect) :
    p.Opens ledger holder (p.opened holder effect effect.canvasId none).toList
      (p.tryEffect effect).1.toList (p.tryEffect effect).2 := by
  have opens := (h.mountEffect holder effect effect.canvasId none).opens fun e => holder_of_opened
  rw [Page.tryEffect]
  generalize p.mountEffect effect effect.canvasId none = outcome at opens ⊢
  rcases outcome with ⟨error | key, q⟩
  · exact opens.say _ _
  · exact opens

theorem Matches.tryEffects (h : p.Matches ledger) (holder : String) (effects : List Effect) :
    p.Opens ledger holder (openedAll holder effects p) (Page.tryEffects effects p).1
      (Page.tryEffects effects p).2 := by
  induction effects generalizing p ledger with
  | nil => exact h.opens_nothing holder
  | cons effect effects ih =>
      have first := h.tryEffect holder effect
      exact first.trans (ih first.added)

theorem Matches.mountEffects (h : p.Matches ledger) (holder : String) :
    p.Opens ledger holder (openedAll holder Effect.all p) p.mountEffects.1 p.mountEffects.2 :=
  (h.tryEffects holder Effect.all).say _ _

end Page
end AnimatedCanvas
