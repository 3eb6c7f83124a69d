import AnimatedCanvas.Proofs.Span

namespace AnimatedCanvas

inductive Choice where
  | index (count answer : Nat)
  | number (lo hi : Float)
  | chance (p : Float)

/-- Whether there is something to choose from, and the answer is one of the indices. -/
def Choice.IsSound : Choice → Prop
  | .index count answer => answer < count
  | .number lo hi =>
    lo.isFinite = true ∧ hi.isFinite = true ∧ lo < hi ∧ (hi - lo).isFinite = true
  | .chance p => 0.0 ≤ p ∧ p ≤ 1.0

/-- A source and what it has been asked for, the latest first. -/
structure Watched (γ : Type) where
  source : γ
  choices : List Choice

namespace Watched

variable {γ : Type}

def start (source : γ) : Watched γ := ⟨source, []⟩

def IsSound (w : Watched γ) : Prop := ∀ choice ∈ w.choices, choice.IsSound

theorem isSound_start (source : γ) : (start source).IsSound := List.forall_mem_nil _

theorem IsSound.choose {w : Watched γ} (h : w.IsSound) (choice : Choice) (sound : choice.IsSound)
    (source : γ) : (⟨source, choice :: w.choices⟩ : Watched γ).IsSound :=
  List.forall_mem_cons.mpr ⟨sound, h⟩

instance [Sampler γ] : Sampler (Watched γ) where
  below n w :=
    let (i, source) := Sampler.below n w.source
    (i, ⟨source, .index n i :: w.choices⟩)
  between lo hi w :=
    let (x, source) := Sampler.between lo hi w.source
    (x, ⟨source, .number lo hi :: w.choices⟩)
  chance p w :=
    let (answer, source) := Sampler.chance p w.source
    (answer, ⟨source, .chance p :: w.choices⟩)

end Watched

/-- What is drawn under watch and without; only sound choices have been made for it. -/
structure Agrees {γ α : Type} (drawn : α × Watched γ) (plain : α × γ) : Prop where
  value : drawn.1 = plain.1
  source : drawn.2.source = plain.2
  sound : drawn.2.IsSound

def Watches {γ α : Type} (draw : Watched γ → α × Watched γ) (plain : γ → α × γ) : Prop :=
  ∀ w, w.IsSound → Agrees (draw w) (plain w.source)

theorem Agrees.next {γ α β : Type} {drawn : α × Watched γ} {first : α × γ} (h : Agrees drawn first)
    {draw : Watched γ → β × Watched γ} {plain : γ → β × γ} (later : Watches draw plain) :
    Agrees (draw drawn.2) (plain first.2) := by
  rw [← h.source]
  exact later drawn.2 h.sound

class Sampler.Lawful (γ : Type) [Sampler γ] : Prop where
  below_lt : ∀ {n : Nat}, 0 < n → ∀ g : γ, (below n g).1 < n

namespace Random

theorem lt_of_indexOf? {n i : Nat} {word : UInt64} (h : indexOf? n word = some i) : i < n := by
  unfold indexOf? at h
  dsimp only at h
  split at h
  next accepted =>
    obtain rfl := Option.some.inj h
    have some : 0 < n := by
      by_contra none
      simp [Nat.eq_zero_of_not_pos none] at accepted
    exact Nat.div_lt_of_lt_mul (Nat.mul_lt_mul_of_pos_right word.toNat_lt some)
  next => cases h

instance {σ : Type} [WordStream σ] : Sampler.Lawful σ where
  below_lt {n} some g :=
    firstAccepted_of (P := (· < n)) some (fun _ _ accepted => lt_of_indexOf? accepted) attempts g

variable {γ α β : Type}

theorem watches_drawEach {draw : β → Watched γ → α × Watched γ} {plain : β → γ → α × γ}
    {items : List β} (each : ∀ b ∈ items, Watches (draw b) (plain b)) :
    Watches (drawEach draw items) (drawEach plain items) := by
  induction items with
  | nil => exact fun _ sound => ⟨rfl, rfl, sound⟩
  | cons b items ih =>
      obtain ⟨here, there⟩ := List.forall_mem_cons.mp each
      intro w sound
      have first := here w sound
      have others := first.next (ih there)
      exact ⟨by simp only [drawEach, first.value, others.value], others.source, others.sound⟩

theorem watches_drawMany {draw : Watched γ → α × Watched γ} {plain : γ → α × γ}
    (each : Watches draw plain) (n : Nat) : Watches (drawMany draw n) (drawMany plain n) :=
  watches_drawEach fun _ _ => each

variable [Sampler γ]

theorem watches_chance {p : Float} (unit : Check.InUnit p) :
    Watches (Sampler.chance p) (Sampler.chance p : γ → Bool × γ) :=
  fun _ sound => ⟨rfl, rfl, sound.choose (.chance p) unit _⟩

theorem watches_sample {s : Span} (h : s.Drawable) :
    Watches s.sample (s.sample : γ → Float × γ) := by
  intro w sound
  unfold Span.sample
  split
  next wide =>
    exact ⟨rfl, rfl, sound.choose (.number s.min s.max) ⟨h.min, h.max, wide, h.width⟩ _⟩
  next => exact ⟨rfl, rfl, sound⟩

variable [Sampler.Lawful γ]

theorem watches_below {n : Nat} (some : 0 < n) :
    Watches (Sampler.below n) (Sampler.below n : γ → Nat × γ) := fun w sound =>
  ⟨rfl, rfl, sound.choose (.index n _) (Sampler.Lawful.below_lt some w.source) _⟩

theorem pick_mem [Inhabited α] {items : List α} (nonempty : items ≠ []) (g : γ) :
    (pick items g).1 ∈ items := by
  have index := Sampler.Lawful.below_lt (List.length_pos_of_ne_nil nonempty) g
  change items.getD (Sampler.below items.length g).1 default ∈ items
  rw [List.getD_eq_getElem _ _ index]
  exact List.getElem_mem index

theorem watches_pick [Inhabited α] {items : List α} (nonempty : items ≠ []) :
    Watches (pick items) (pick items : γ → α × γ) := by
  intro w sound
  have index := watches_below (List.length_pos_of_ne_nil nonempty) w sound
  exact ⟨by simp only [pick, index.value], index.source, index.sound⟩

end Random
end AnimatedCanvas
