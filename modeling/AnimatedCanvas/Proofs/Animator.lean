import AnimatedCanvas.Animator

namespace AnimatedCanvas.Animator

variable {α : Type} {a : Animator α}

theorem canStart_eq_true : a.canStart = true ↔ a.isRunning = false ∧ a.isDestroyed = false := by
  simp [canStart]

theorem draws_eq_true {isAttached : Bool} : a.draws isAttached = true ↔
    (a.isDestroyed = false ∧ a.isRunning = true) ∧ isAttached = true := by
  simp [draws]

theorem withScene_of_destroyed (h : a.isDestroyed = true) (f : α → α) : a.withScene f = a :=
  if_pos h

theorem withScene_of_alive (h : a.isDestroyed = false) (f : α → α) :
    a.withScene f = { a with scene := f a.scene } := by
  simp [withScene, h]

theorem surface_withScene (f : α → α) (a : Animator α) : (a.withScene f).surface = a.surface := by
  unfold withScene
  split <;> rfl

structure KeepsLoop (f : Animator α → Animator α) : Prop where
  running : ∀ a, (f a).isRunning = a.isRunning
  destroyed : ∀ a, (f a).isDestroyed = a.isDestroyed
  pending : ∀ a, (f a).pending = a.pending

theorem keepsLoop_withScene (f : α → α) : KeepsLoop (withScene · f) := by
  constructor <;> intro a <;> simp only [withScene] <;> split <;> rfl

variable [Scene α]

theorem keepsLoop_resize (size : Size) : KeepsLoop (resize (α := α) · size) := by
  constructor <;> intro a <;> simp only [resize] <;> split <;> rfl

theorem resize_of_destroyed (h : a.isDestroyed = true) (size : Size) : a.resize size = a :=
  if_pos h

theorem resize_of_alive (h : a.isDestroyed = false) (size : Size) :
    a.resize size = { a with size, scene := Scene.resize size a.scene } := by
  simp [resize, h]

theorem surface_resize (size : Size) (a : Animator α) : (a.resize size).surface = a.surface := by
  unfold resize
  split <;> rfl

theorem destroy_of_destroyed (h : a.isDestroyed = true) : a.destroy = a := if_pos h

theorem destroy_of_alive (h : a.isDestroyed = false) : a.destroy = { a with
    isDestroyed := true, isRunning := false, pending := none, scene := Scene.clear a.scene } := by
  simp [destroy, h]

theorem surface_destroy (a : Animator α) : a.destroy.surface = a.surface := by
  unfold destroy
  split <;> rfl

theorem size_destroy (a : Animator α) : a.destroy.size = a.size := by
  unfold destroy
  split <;> rfl

theorem frames_destroy (a : Animator α) : a.destroy.frames = a.frames := by
  unfold destroy
  split <;> rfl

theorem isDestroyed_destroy (a : Animator α) : a.destroy.isDestroyed = true := by
  unfold destroy
  split
  next destroyed => exact destroyed
  next => rfl

end AnimatedCanvas.Animator
