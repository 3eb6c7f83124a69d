import AnimatedCanvas.Page.Mount
import AnimatedCanvas.Stage

namespace AnimatedCanvas

namespace Stage

variable {α : Type} [Scene α] {s : Stage α} {name id : String} {build : Size → Except ConfigError α}
  {build? : Size → Option (Except ConfigError α)}

theorem mount?_eq (built : ∀ size, build? size = some (build size)) :
    s.mount? name id build? = some (s.mount name id build) := by
  unfold mount? mount
  cases s.openSurface id with
  | error e => rfl
  | ok recorder => simp only [built]; rfl

theorem mountStopped?_eq (built : ∀ size, build? size = some (build size)) :
    s.mountStopped? name id build? = some (s.mountStopped name id build) := by
  unfold mountStopped? mountStopped
  cases s.openSurface id with
  | error e => rfl
  | ok recorder => simp only [built]; rfl

end Stage

namespace Page

theorem eq_of_deliver? {client : Option Point} {p q : Page} {listeners : List Listener}
    (delivered : listeners.foldlM (deliver? client) p = some q) :
    listeners.foldl (deliver client) p = q := by
  induction listeners generalizing p with
  | nil => exact Option.some.inj delivered
  | cons l rest ih =>
      rw [List.foldlM_cons, deliver?] at delivered
      cases reserved : reserveEvent? client p l with
      | none => simp [reserved] at delivered
      | some => exact ih (by simpa [reserved] using delivered)

/-- An event whose listeners find memory is dispatched as it is without reservations. -/
theorem eq_of_dispatch? {p : Page} {target : EventTarget} {type : String} {client : Option Point}
    {answer : Option Nat × Page} (dispatched : p.dispatch? target type client = some answer) :
    p.dispatch target type client = answer := by
  unfold dispatch? at dispatched
  unfold dispatch
  split at dispatched
  next missing => rw [if_pos missing, Option.some.inj dispatched]
  next there =>
    rw [if_neg there]
    simp only [bind, Option.bind_eq_some_iff] at dispatched
    obtain ⟨q, delivered, same⟩ := dispatched
    dsimp only
    rw [eq_of_deliver? delivered]
    exact Option.some.inj same

end Page
end AnimatedCanvas
