import AnimatedCanvas.Text.Blank
import AnimatedCanvas.Text.Hexadecimal

namespace AnimatedCanvas.Text

theorem trimChars_eq_self {cs : List Char} (blank : ∀ c ∈ cs, isBlank c = false) :
    trimChars cs = cs := by
  have keeps : ∀ {cs : List Char}, (∀ c ∈ cs, isBlank c = false) → cs.dropWhile isBlank = cs := by
    intro cs blank
    cases cs with
    | nil => rfl
    | cons c cs => exact List.dropWhile_cons_of_neg (by simp [blank c List.mem_cons_self])
  unfold trimChars
  rw [keeps blank, keeps fun c member => blank c (List.mem_reverse.1 member), List.reverse_reverse]

theorem exists_blanks_around (cs : List Char) : ∃ before after, cs = before ++ trimChars cs ++ after ∧
    ∀ c ∈ before ++ after, isBlank c = true := by
  let rest := cs.dropWhile isBlank
  have first : cs.takeWhile isBlank ++ rest = cs := List.takeWhile_append_dropWhile
  have last : (rest.reverse.dropWhile isBlank).reverse ++ (rest.reverse.takeWhile isBlank).reverse =
      rest := by
    rw [← List.reverse_append, List.takeWhile_append_dropWhile, List.reverse_reverse]
  have taken (ds : List Char) : ∀ c ∈ ds.takeWhile isBlank, isBlank c = true :=
    List.all_eq_true.1 List.all_takeWhile
  refine ⟨cs.takeWhile isBlank, (rest.reverse.takeWhile isBlank).reverse, ?_, ?_⟩
  · rw [List.append_assoc]
    exact first.symm.trans (congrArg _ last.symm)
  · exact List.forall_mem_append.2 ⟨taken cs, fun c member => taken _ c (List.mem_reverse.1 member)⟩

theorem trimChars_append {before after : List Char} (blank : ∀ c ∈ before ++ after, isBlank c = true)
    (inner : List Char) {first last : Char} (opens : isBlank first = false)
    (closes : isBlank last = false) :
    trimChars (before ++ (first :: inner ++ [last]) ++ after) = first :: inner ++ [last] := by
  obtain ⟨blank, blank'⟩ := List.forall_mem_append.1 blank
  have front : (before ++ (first :: inner ++ [last]) ++ after).dropWhile isBlank =
      first :: inner ++ [last] ++ after := by
    rw [List.append_assoc, List.dropWhile_append_of_pos blank]
    exact List.dropWhile_cons_of_neg (by simp [opens])
  have back : (first :: inner ++ [last] ++ after).reverse.dropWhile isBlank =
      (first :: inner ++ [last]).reverse := by
    rw [List.reverse_append,
      List.dropWhile_append_of_pos fun c member => blank' c (List.mem_reverse.1 member),
      List.reverse_concat]
    exact List.dropWhile_cons_of_neg (by simp [closes])
  rw [trimChars, front, back, List.reverse_reverse]

theorem hexDigit?_digitChar : ∀ n < 16, hexDigit? (Nat.digitChar n) = some n := by decide

def IsHexDigit (c : Char) (d : Nat) : Prop :=
  d < 16 ∧ (c = Nat.digitChar d ∨ c = (Nat.digitChar d).toUpper)

theorem hexDigit?_eq_some {c : Char} {d : Nat} : hexDigit? c = some d ↔ IsHexDigit c d := by
  constructor
  · intro h
    have ranged {lo hi : Char} {count : Nat} {f : Nat → Char} (within : lo ≤ c ∧ c ≤ hi)
        (size : hi.toNat < lo.toNat + count) (same : ∀ k < count, Char.ofNat (lo.toNat + k) = f k) :
        c.toNat - lo.toNat < count ∧ c = f (c.toNat - lo.toNat) := by
      obtain ⟨above, below⟩ : lo.toNat ≤ c.toNat ∧ c.toNat ≤ hi.toNat := within
      have less : c.toNat - lo.toNat < count := by omega
      refine ⟨less, ?_⟩
      rw [← same _ less, Nat.add_sub_cancel' above, Char.ofNat_toNat]
    unfold hexDigit? at h
    split at h
    next digit =>
      obtain ⟨less, same⟩ := ranged digit (by decide : _ < _ + 10) (f := Nat.digitChar) (by decide)
      cases h
      exact ⟨by omega, .inl same⟩
    split at h
    next lower =>
      obtain ⟨less, same⟩ := ranged lower (by decide : _ < _ + 6)
        (f := fun k => Nat.digitChar (k + 10)) (by decide)
      cases h
      exact ⟨by omega, .inl same⟩
    split at h
    next upper =>
      obtain ⟨less, same⟩ := ranged upper (by decide : _ < _ + 6)
        (f := fun k => (Nat.digitChar (k + 10)).toUpper) (by decide)
      cases h
      exact ⟨by omega, .inr same⟩
    next => cases h
  · rintro ⟨small, rfl | rfl⟩
    · exact hexDigit?_digitChar d small
    · have upper : ∀ d < 16, hexDigit? (Nat.digitChar d).toUpper = some d := by decide
      exact upper d small

end AnimatedCanvas.Text
