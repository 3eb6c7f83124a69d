import AnimatedCanvas.Page.Copy
import Mathlib.Data.List.Basic

/-!
# What a copy button says in the end

Every text that the clipboard accepts makes the button say so, and starts a timer with the text that the
button showed at that moment. Timers run out in the order in which they were started, so once all have,
the button shows what it showed when the clipboard accepted a text for the last time
(`copy_text_at_rest`). That is the first text unless the button was still saying that it had copied;
then this may stay for ever (`overlapping_copies_stay_copied`).
-/

namespace AnimatedCanvas

namespace ElementTree

variable {t : ElementTree} {key : Nat} {e : Element}

theorem text_of_get? (present : t.get? key = some e) (leaf : e.children = []) :
    t.text key = e.state.text := by
  obtain ⟨inside, -⟩ := List.getElem?_eq_some_iff.mp present
  obtain ⟨depth, same⟩ := Nat.exists_eq_add_one.mpr (Nat.zero_lt_of_lt inside)
  rw [text, same, textTo, present]
  simp [leaf]

theorem get?_modify (present : t.get? key = some e) (f : Element → Element) :
    (t.modify key f).get? key = some (f e) := by
  change (t.elements.modify key f)[key]? = _
  rw [List.getElem?_modify_eq]
  exact congrArg (Option.map f) present

theorem get?_relabel (present : t.get? key = some e) (label : String) (f : ElementState → ElementState) :
    ((t.setText key label).modifyState key f).get? key =
      some { e with state := f { e.state with text := label }, children := [] } :=
  get?_modify (get?_modify present _) _

theorem text_relabel (present : t.get? key = some e) (label : String) (f : ElementState → ElementState)
    (same : ∀ state, (f state).text = state.text) :
    ((t.setText key label).modifyState key f).text key = label := by
  rw [text_of_get? (get?_relabel present label f) rfl]
  exact same _

end ElementTree

def Clipboard.isAccepting : Clipboard → Bool
  | .accepts => true
  | .waits => false
  | .refuses _ => false

namespace Page

/-! ## Steps -/

/-- What can happen while a button copies: it is pressed, and the clipboard answers at once or not yet;
the clipboard answers for a text that it has not answered for; time passes. -/
inductive CopyStep where
  | press (clipboard : Clipboard)
  | answer (index : Nat) (clipboard : Clipboard)
  | wait (milliseconds : Nat)

def answerAt (p : Page) (index : Nat) (clipboard : Clipboard) : Page :=
  match p.unsettled[index]? with
  | some button => answerCopy clipboard { p with unsettled := p.unsettled.eraseIdx index } button
  | none => p

def copyStep (button : Nat) (p : Page) : CopyStep → Page
  | .press clipboard => (p.set (.clipboard clipboard)).copyCode button
  | .answer index clipboard => p.answerAt index clipboard
  | .wait milliseconds => (p.wait milliseconds).2

def copyAll (p : Page) (button : Nat) (steps : List CopyStep) : Page :=
  steps.foldl (copyStep button) p

def asks (p : Page) (button : Nat) : Bool := (p.codeOf? button).isSome && p.hasWindow

def accepts (p : Page) (button : Nat) : CopyStep → Bool
  | .press clipboard => clipboard.isAccepting && p.asks button
  | .answer index clipboard => clipboard.isAccepting && index < p.unsettled.length
  | .wait _ => false

/-- What the button showed when the clipboard accepted a text for the last time; `label` if it never
did. -/
def lastShown (button : Nat) (label : String) : Page → List CopyStep → String
  | _, [] => label
  | p, step :: steps =>
    lastShown button (if p.accepts button step then p.tree.text button else label)
      (p.copyStep button step) steps

/-- The clipboard accepts no text while the button says that it has copied. -/
def Apart (button : Nat) : Page → List CopyStep → Prop
  | _, [] => True
  | p, step :: steps =>
    (p.accepts button step = true → p.timers = []) ∧ Apart button (p.copyStep button step) steps

/-! ## Timers -/

def afterTimers (timers : List Timer) (text : String) : String :=
  timers.foldl (fun _ timer => timer.label) text

theorem filter_append_filter {timers : List Timer}
    (order : timers.Pairwise fun a b => a.remaining ≤ b.remaining) :
    timers.filter (·.remaining == 0) ++ timers.filter (·.remaining != 0) = timers := by
  induction timers with
  | nil => rfl
  | cons timer timers ih =>
      obtain ⟨first, order⟩ := List.pairwise_cons.mp order
      by_cases due : timer.remaining = 0
      · simp [due, ih order]
      · -- The first one runs still, and so do the others.
        have none : (timer :: timers).filter (·.remaining == 0) = [] := by
          rw [List.filter_eq_nil_iff, List.forall_mem_cons]
          refine ⟨by simpa using due, fun other member => ?_⟩
          have := first other member
          simp only [beq_iff_eq]
          omega
        have all : (timer :: timers).filter (·.remaining != 0) = timer :: timers := by
          rw [List.filter_eq_self]
          intro other member
          have := List.filter_eq_nil_iff.mp none other member
          simpa using this
        rw [none, all, List.nil_append]

structure Copying (p : Page) (button : Nat) (original : String) : Prop where
  present : ∃ e, p.tree.get? button = some e
  own : ∀ timer ∈ p.timers, timer.button = button
  order : p.timers.Pairwise fun a b => a.remaining ≤ b.remaining
  remaining_le : ∀ timer ∈ p.timers, timer.remaining ≤ labelTime
  unsettled : ∀ other ∈ p.unsettled, other = button
  text : p.tree.text button = original ∨ p.tree.text button = copiedLabel
  labels : ∀ timer ∈ p.timers, timer.label = original ∨ timer.label = copiedLabel

variable {p : Page} {button : Nat} {original : String}

def textAtRest (p : Page) (button : Nat) : String := afterTimers p.timers (p.tree.text button)

theorem text_confirmCopy (present : ∃ e, p.tree.get? button = some e) :
    (p.confirmCopy button).tree.text button = copiedLabel := by
  obtain ⟨e, present⟩ := present
  exact ElementTree.text_relabel present copiedLabel (·.setProperty "background" copiedBackground)
    fun _ => rfl

theorem textAtRest_confirmCopy : (p.confirmCopy button).textAtRest button = p.tree.text button := by
  rw [textAtRest, afterTimers, confirmCopy, List.foldl_append]
  rfl

theorem Copying.confirmCopy (h : p.Copying button original) :
    (p.confirmCopy button).Copying button original where
  present := by
    obtain ⟨e, present⟩ := h.present
    exact ⟨_, ElementTree.get?_relabel present copiedLabel _⟩
  own := by
    change ∀ timer ∈ p.timers ++ [_], _
    rw [List.forall_mem_append, List.forall_mem_singleton]
    exact ⟨h.own, rfl⟩
  order := by
    change (p.timers ++ [_]).Pairwise _
    rw [List.pairwise_append]
    refine ⟨h.order, List.pairwise_singleton _ _, fun timer member last only => ?_⟩
    rw [List.mem_singleton.mp only]
    exact h.remaining_le timer member
  remaining_le := by
    change ∀ timer ∈ p.timers ++ [_], _
    rw [List.forall_mem_append, List.forall_mem_singleton]
    exact ⟨h.remaining_le, Nat.le_refl _⟩
  unsettled := h.unsettled
  text := .inr (text_confirmCopy h.present)
  labels := by
    change ∀ timer ∈ p.timers ++ [_], _
    rw [List.forall_mem_append, List.forall_mem_singleton]
    exact ⟨h.labels, h.text⟩

structure Continues (p : Page) (button : Nat) (original : String) (accepted : Bool) (q : Page) :
    Prop where
  copying : q.Copying button original
  textAtRest : q.textAtRest button = if accepted then p.tree.text button else p.textAtRest button

theorem Copying.congr (h : p.Copying button original) {q : Page} (tree : q.tree = p.tree)
    (timers : q.timers = p.timers) (unsettled : ∀ other ∈ q.unsettled, other = button) :
    q.Copying button original where
  present := tree ▸ h.present
  own := timers ▸ h.own
  order := timers ▸ h.order
  remaining_le := timers ▸ h.remaining_le
  unsettled := unsettled
  text := tree ▸ h.text
  labels := timers ▸ h.labels

theorem Copying.answerCopy (h : p.Copying button original) (clipboard : Clipboard) :
    p.Continues button original clipboard.isAccepting (Page.answerCopy clipboard p button) := by
  cases clipboard with
  | accepts => exact ⟨h.confirmCopy, textAtRest_confirmCopy⟩
  | refuses reason => exact ⟨h.congr rfl rfl h.unsettled, rfl⟩
  | waits =>
      refine ⟨h.congr rfl rfl ?_, rfl⟩
      change ∀ other ∈ p.unsettled ++ [button], _
      rw [List.forall_mem_append, List.forall_mem_singleton]
      exact ⟨h.unsettled, rfl⟩

theorem copyCode_of_asks (h : p.asks button = true) :
    ∃ writes, p.copyCode button = Page.answerCopy p.clipboard { p with writes } button := by
  obtain ⟨code, window⟩ := Bool.and_eq_true_iff.mp h
  obtain ⟨code, found⟩ := Option.isSome_iff_exists.mp code
  exact ⟨p.writes ++ [p.tree.text code], by simp [copyCode, found, window]⟩

theorem copyCode_of_not_asks (h : p.asks button = false) : p.copyCode button = p := by
  unfold copyCode
  cases found : p.codeOf? button with
  | none => rfl
  | some code => simp_all [asks]

theorem Copying.press (h : p.Copying button original) (clipboard : Clipboard) :
    p.Continues button original (p.accepts button (.press clipboard))
      ((p.set (.clipboard clipboard)).copyCode button) := by
  have asked (writes : List String) : ({ p with clipboard, writes } : Page).Copying button original :=
    h.congr rfl rfl h.unsettled
  change p.Continues button original (clipboard.isAccepting && p.asks button) _
  cases asks : p.asks button with
  | false =>
      have same := copyCode_of_not_asks (p := p.set (.clipboard clipboard)) asks
      rw [Bool.and_false, same]
      exact ⟨asked p.writes, rfl⟩
  | true =>
      obtain ⟨writes, same⟩ := copyCode_of_asks (p := p.set (.clipboard clipboard)) asks
      have answered := (asked writes).answerCopy clipboard
      rw [Bool.and_true, same]
      exact ⟨answered.copying, answered.textAtRest⟩

theorem Copying.answerAt (h : p.Copying button original) (index : Nat) (clipboard : Clipboard) :
    p.Continues button original (p.accepts button (.answer index clipboard))
      (p.answerAt index clipboard) := by
  change p.Continues button original (clipboard.isAccepting && decide (index < p.unsettled.length)) _
  unfold Page.answerAt
  by_cases inside : index < p.unsettled.length
  · rw [List.getElem?_eq_getElem inside, decide_eq_true inside, Bool.and_true]
    have same : p.unsettled[index] = button := h.unsettled _ (List.getElem_mem inside)
    have rest : ∀ other ∈ p.unsettled.eraseIdx index, other = button :=
      fun other member => h.unsettled other (List.mem_of_mem_eraseIdx member)
    have waiting : ({ p with unsettled := p.unsettled.eraseIdx index } : Page).Copying button
        original := h.congr rfl rfl rest
    rw [same]
    have answered := waiting.answerCopy clipboard
    exact ⟨answered.copying, answered.textAtRest⟩
  · rw [List.getElem?_eq_none (Nat.le_of_not_lt inside), decide_eq_false inside, Bool.and_false]
    exact ⟨h, rfl⟩

/-! ## Time -/

structure Restored (p : Page) (button : Nat) (due : List Timer) (q : Page) : Prop where
  present : ∃ e, q.tree.get? button = some e
  timers : q.timers = p.timers
  unsettled : q.unsettled = p.unsettled
  text : q.tree.text button = afterTimers due (p.tree.text button)

theorem restored_restoreLabel {timer : Timer} (present : ∃ e, p.tree.get? timer.button = some e) :
    p.Restored timer.button [timer] (p.restoreLabel timer) := by
  obtain ⟨e, present⟩ := present
  exact ⟨⟨_, ElementTree.get?_relabel present timer.label _⟩, rfl, rfl,
    ElementTree.text_relabel present timer.label (·.removeProperty "background") fun _ => rfl⟩

theorem restored_foldl {due : List Timer} (present : ∃ e, p.tree.get? button = some e)
    (own : ∀ timer ∈ due, timer.button = button) :
    p.Restored button due (due.foldl restoreLabel p) := by
  induction due generalizing p with
  | nil => exact ⟨present, rfl, rfl, rfl⟩
  | cons timer due ih =>
      obtain ⟨rfl, own⟩ := List.forall_mem_cons.mp own
      have first := restored_restoreLabel present
      have rest := ih first.present own
      refine ⟨rest.present, rest.timers, rest.unsettled, rest.text.trans ?_⟩
      rw [first.text]
      rfl

def runDown (milliseconds : Nat) (timer : Timer) : Timer :=
  { timer with remaining := timer.remaining - milliseconds }

theorem afterTimers_runDown (timers : List Timer) (milliseconds : Nat) (text : String) :
    afterTimers (timers.map (runDown milliseconds)) text = afterTimers timers text :=
  List.foldl_map

theorem afterTimers_eq {timers : List Timer} {P : String → Prop} {text : String} (shown : P text)
    (labels : ∀ timer ∈ timers, P timer.label) : P (afterTimers timers text) := by
  induction timers generalizing text with
  | nil => exact shown
  | cons timer timers ih =>
      obtain ⟨first, rest⟩ := List.forall_mem_cons.mp labels
      exact ih first rest

theorem restored_wait (h : p.Copying button original) (milliseconds : Nat) :
    let timers := p.timers.map (runDown milliseconds)
    ({ p with timers := timers.filter (·.remaining != 0) } : Page).Restored button
      (timers.filter (·.remaining == 0)) (p.wait milliseconds).2 := by
  intro timers
  refine restored_foldl h.present fun timer due => ?_
  obtain ⟨old, member, rfl⟩ := List.mem_map.mp (List.mem_of_mem_filter due)
  exact h.own old member

theorem Copying.runDown (h : p.Copying button original) (milliseconds : Nat) :
    let timers := p.timers.map (runDown milliseconds)
    (∀ timer ∈ timers, timer.button = button ∧ timer.remaining ≤ labelTime ∧
      (timer.label = original ∨ timer.label = copiedLabel)) ∧
    timers.Pairwise fun a b => a.remaining ≤ b.remaining := by
  constructor
  · intro timer member
    obtain ⟨old, waiting, rfl⟩ := List.mem_map.mp member
    exact ⟨h.own old waiting, Nat.le_trans (Nat.sub_le _ _) (h.remaining_le old waiting),
      h.labels old waiting⟩
  · rw [List.pairwise_map]
    exact h.order.imp fun le => Nat.sub_le_sub_right le milliseconds

theorem Copying.wait (h : p.Copying button original) (milliseconds : Nat) :
    (p.wait milliseconds).2.Copying button original := by
  have restored := restored_wait h milliseconds
  obtain ⟨each, order⟩ := h.runDown milliseconds
  have later : ∀ timer ∈ (p.wait milliseconds).2.timers,
      timer ∈ p.timers.map (Page.runDown milliseconds) := by
    rw [restored.timers]
    exact fun timer member => List.mem_of_mem_filter member
  refine ⟨restored.present, fun timer member => (each timer (later timer member)).1, ?_,
    fun timer member => (each timer (later timer member)).2.1, ?_, ?_,
    fun timer member => (each timer (later timer member)).2.2⟩
  · rw [restored.timers]
    exact order.filter _
  · rw [restored.unsettled]
    exact h.unsettled
  · rw [restored.text]
    exact afterTimers_eq (P := fun text => text = original ∨ text = copiedLabel) h.text
      fun timer due => (each timer (List.mem_of_mem_filter due)).2.2

theorem textAtRest_wait (h : p.Copying button original) (milliseconds : Nat) :
    (p.wait milliseconds).2.textAtRest button = p.textAtRest button := by
  have restored := restored_wait h milliseconds
  rw [textAtRest, restored.timers, restored.text, afterTimers, afterTimers, ← List.foldl_append,
    filter_append_filter (h.runDown milliseconds).2]
  exact afterTimers_runDown p.timers milliseconds _

/-! ## Whole runs -/

theorem Copying.copyStep (h : p.Copying button original) (step : CopyStep) :
    p.Continues button original (p.accepts button step) (p.copyStep button step) := by
  cases step with
  | press clipboard => exact h.press clipboard
  | answer index clipboard => exact h.answerAt index clipboard
  | wait milliseconds => exact ⟨h.wait milliseconds, textAtRest_wait h milliseconds⟩

theorem Copying.copyAll (h : p.Copying button original) (steps : List CopyStep) :
    (p.copyAll button steps).Copying button original ∧
      (p.copyAll button steps).textAtRest button = lastShown button (p.textAtRest button) p steps := by
  induction steps generalizing p with
  | nil => exact ⟨h, rfl⟩
  | cons step steps ih =>
      have next := h.copyStep step
      obtain ⟨copying, text⟩ := ih next.copying
      exact ⟨copying, by rw [lastShown, ← next.textAtRest, ← text]; rfl⟩

theorem Copying.lastShown_of_apart (h : p.Copying button original) {steps : List CopyStep}
    (apart : Apart button p steps) :
    lastShown button (p.textAtRest button) p steps = p.textAtRest button := by
  induction steps generalizing p with
  | nil => rfl
  | cons step steps ih =>
      obtain ⟨alone, apart⟩ := apart
      have next := h.copyStep step
      have same : (p.copyStep button step).textAtRest button = p.textAtRest button := by
        rw [next.textAtRest]
        split
        next accepted =>
          rw [textAtRest, alone accepted]
          rfl
        next => rfl
      rw [lastShown, ← next.textAtRest, ih next.copying apart, same]

/-- Once all timers have run out, the button shows what it showed when the clipboard last accepted a
text. This is the first text, or what the button says when it has copied; it is the first text if the
clipboard accepted none while the button said so. -/
theorem copy_text_at_rest (p : Page) (button : Nat) (timers : p.timers = [])
    (unsettled : p.unsettled = []) (present : (p.tree.get? button).isSome = true)
    (steps : List CopyStep) (rest : (p.copyAll button steps).timers = []) :
    let text := (p.copyAll button steps).tree.text button
    text = lastShown button (p.tree.text button) p steps ∧
      (text = p.tree.text button ∨ text = copiedLabel) ∧
      (Apart button p steps → text = p.tree.text button) := by
  intro text
  have copying : p.Copying button (p.tree.text button) := by
    refine ⟨Option.isSome_iff_exists.mp present, ?_, ?_, ?_, ?_, .inl rfl, ?_⟩ <;>
      simp [timers, unsettled]
  have now : p.textAtRest button = p.tree.text button := by
    rw [textAtRest, timers]
    rfl
  obtain ⟨copied, ends⟩ := copying.copyAll steps
  rw [textAtRest, rest, now] at ends
  refine ⟨ends, copied.text, fun apart => ?_⟩
  have kept := copying.lastShown_of_apart apart
  rw [now] at kept
  exact ends.trans kept

def codeBlock : ElementTree where
  elements := [
    { state := { tag := "div", classes := ["code-block"] }, parent := none, children := [1, 2] },
    { state := { tag := "button", text := "Copy" }, parent := some 0, children := [] },
    { state := { tag := "code", text := "let x = 1;" }, parent := some 0, children := [] }]
  ids := []

def copyAgain : List CopyStep :=
  [.press .waits, .answer 0 .accepts, .wait 2000, .press .accepts, .wait 1999, .wait 1]

theorem copy_text_at_rest_again :
    (copyAll { tree := codeBlock } 1 copyAgain).timers = [] ∧
      (copyAll { tree := codeBlock } 1 copyAgain).tree.text 1 = "Copy" := by
  have rest : (copyAll { tree := codeBlock } 1 copyAgain).timers = [] :=
    List.isEmpty_iff.mp (by decide +kernel)
  have apart : Apart 1 { tree := codeBlock } copyAgain :=
    ⟨nofun, fun _ => rfl, nofun, fun _ => List.isEmpty_iff.mp (by decide +kernel), nofun, nofun,
      trivial⟩
  obtain ⟨-, -, restored⟩ := copy_text_at_rest { tree := codeBlock } 1 rfl rfl rfl copyAgain rest
  exact ⟨rest, restored apart⟩

theorem overlapping_copies_stay_copied :
    let p : Page := { tree := codeBlock }
    let q := p.copyAll 1 [.press .accepts, .wait 1000, .press .accepts, .wait 1000, .wait 1000]
    p.codeOf? 1 = some 2 ∧ q.unsettled = [] ∧ q.timers = [] ∧ p.tree.text 1 = "Copy" ∧
      q.tree.text 1 = "Copied!" ∧ q.tree.text 1 ≠ p.tree.text 1 := by
  exact ⟨rfl, rfl, rfl, rfl, rfl, by decide⟩

end Page
end AnimatedCanvas
