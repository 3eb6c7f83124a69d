import AnimatedCanvas.Random

namespace AnimatedCanvas.Random

variable {σ α : Type} [WordStream σ]

/-- The first acceptable word of a stream stands for a value, and leaves the rest of the stream. -/
inductive Finds (accept : UInt64 → Option α) : σ → α → σ → Prop
  | here {s : σ} {a : α} (taken : accept (WordStream.next s).1 = some a) :
      Finds accept s a (WordStream.next s).2
  | later {s t : σ} {a : α} (refused : accept (WordStream.next s).1 = none)
      (rest : Finds accept (WordStream.next s).2 a t) : Finds accept s a t

def wordAt : Nat → σ → UInt64
  | 0, s => (WordStream.next s).1
  | k + 1, s => wordAt k (WordStream.next s).2

variable {accept : UInt64 → Option α} {s t u : σ} {a b : α}

theorem Finds.exists_word (h : Finds accept s a t) : ∃ word, accept word = some a := by
  induction h with
  | here taken => exact ⟨_, taken⟩
  | later _ _ ih => exact ih

theorem Finds.unique (h : Finds accept s a t) (h' : Finds accept s b u) : a = b ∧ t = u := by
  induction h with
  | here taken =>
      cases h' with
      | here taken' => exact ⟨Option.some.inj (taken.symm.trans taken'), rfl⟩
      | later refused _ => simp [taken] at refused
  | later refused _ ih =>
      cases h' with
      | here taken => simp [taken] at refused
      | later _ rest => exact ih rest

theorem finds_or_refused (accept : UInt64 → Option α) (fallback : α) (n : Nat) (s : σ) :
    Finds accept s (firstAccepted accept fallback n s).1 (firstAccepted accept fallback n s).2 ∨
      ∀ k < n, accept (wordAt k s) = none := by
  induction n generalizing s with
  | zero => exact .inr fun k less => absurd less (Nat.not_lt_zero k)
  | succ n ih =>
      unfold firstAccepted
      dsimp only
      split
      next a taken => exact .inl (.here taken)
      next refused =>
        refine (ih (WordStream.next s).2).imp (.later refused) fun rest k less => ?_
        cases k with
        | zero => exact refused
        | succ k => exact rest k (Nat.lt_of_succ_lt_succ less)

end AnimatedCanvas.Random
