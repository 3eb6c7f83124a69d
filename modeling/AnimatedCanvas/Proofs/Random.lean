import AnimatedCanvas.Random

namespace AnimatedCanvas.Random

variable {α β γ : Type}

theorem length_drawEach (draw : β → γ → α × γ) (items : List β) (g : γ) :
    (drawEach draw items g).1.length = items.length := by
  induction items generalizing g with
  | nil => rfl
  | cons item items ih => simp [drawEach, ih]

theorem forall_mem_drawEach {draw : β → γ → α × γ} {items : List β} {P : α → Prop}
    (h : ∀ item ∈ items, ∀ g, P (draw item g).1) (g : γ) :
    ∀ a ∈ (drawEach draw items g).1, P a := by
  induction items generalizing g with
  | nil =>
      intro a member
      cases member
  | cons item items ih =>
      obtain ⟨first, rest⟩ := List.forall_mem_cons.mp h
      exact List.forall_mem_cons.mpr ⟨first g, ih rest (draw item g).2⟩

theorem length_drawMany (draw : γ → α × γ) (n : Nat) (g : γ) :
    (drawMany draw n g).1.length = n := by
  rw [drawMany, length_drawEach, List.length_replicate]

theorem forall_mem_drawMany {draw : γ → α × γ} {P : α → Prop} (h : ∀ g, P (draw g).1) (n : Nat)
    (g : γ) : ∀ a ∈ (drawMany draw n g).1, P a :=
  forall_mem_drawEach (fun _ _ => h) g

end AnimatedCanvas.Random
