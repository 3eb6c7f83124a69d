import AnimatedCanvas.Proofs.Document.Kinds
import AnimatedCanvas.Proofs.Document.Printed
import AnimatedCanvas.Proofs.Document.Scanner

namespace AnimatedCanvas.Yaml

open Value (isWord)
open Decimal (Literal)
open Decimal.Literal (digits sign exponent? read?)
open Scanner (Word)

/-! ## Numbers -/

def plainNumber? (text : String) : Option Number :=
  match plainValue? text with
  | some (.number n) => some n
  | _ => none

def ReadsBack (n : Number) : Prop := plainNumber? (Value.yamlNumber n) = some n

instance (n : Number) : Decidable (ReadsBack n) :=
  inferInstanceAs (Decidable (plainNumber? _ = some n))

theorem plainValue?_of_readsBack {n : Number} (h : ReadsBack n) :
    plainValue? (Value.yamlNumber n) = some (.number n) := by
  unfold ReadsBack plainNumber? at h
  split at h
  next m same => rw [same, Option.some.inj h]
  · cases h

theorem isSafe_of_isDigit {c : Char} (h : c.isDigit = true) : isSafe c = true := by
  simp [isSafe, Char.isAlphanum, h]

theorem bare_natural (n : Nat) : Bare (toString n).toList := by
  have digit : ∀ c ∈ (toString n).toList, c.isDigit = true := fun c member =>
    Nat.isDigit_of_mem_toDigits (b := 10) (by omega) (by omega) (by simpa using member)
  have nonempty : (toString n).toList ≠ [] := by simp [Nat.toDigits_ne_nil]
  refine ⟨?_, fun c member => isSafe_of_isDigit (digit c member)⟩
  obtain ⟨c, cs, same⟩ := List.exists_cons_of_ne_nil nonempty
  refine ⟨c, cs, same, ?_⟩
  rintro rfl
  have := digit '-' (same ▸ List.mem_cons_self)
  cases this

theorem safe_of_sign {cs : List Char}
    (h : ∀ c ∈ (sign cs).2, isSafe c = true) : ∀ c ∈ cs, isSafe c = true := by
  unfold sign at h
  split at h
  · exact List.forall_mem_cons.2 ⟨rfl, h⟩
  · exact List.forall_mem_cons.2 ⟨rfl, h⟩
  · exact h

theorem safe_of_digits {cs : List Char} (h : ∀ c ∈ (digits cs).2, isSafe c = true) :
    ∀ c ∈ cs, isSafe c = true := by
  intro c member
  rw [← List.takeWhile_append_dropWhile (p := Char.isDigit) (l := cs), List.mem_append] at member
  obtain digit | member := member
  · exact isSafe_of_isDigit ((List.all_eq_true.1 List.all_takeWhile c digit))
  · exact h c member

theorem safe_of_exponent? {cs : List Char} {e : Int} (h : exponent? cs = some e) :
    ∀ c ∈ cs, isSafe c = true := by
  cases cs with
  | nil => simp
  | cons c cs =>
      rw [exponent?] at h
      split at h
      next letter =>
        have first : isSafe c = true := by
          obtain rfl | rfl := letter
          · rfl
          · rfl
        refine List.forall_mem_cons.2 ⟨first, safe_of_sign fun d member => ?_⟩
        dsimp only at h
        split at h
        · cases h
        next digits =>
          simp only [Bool.or_eq_true, Bool.not_eq_true', not_or, Bool.not_eq_false,
            List.all_eq_true] at digits
          exact isSafe_of_isDigit (digits.2 d member)
      · cases h

theorem safe_of_read? {cs : List Char} {l : Literal}
    (h : read? cs = some l) : cs ≠ [] ∧ ∀ c ∈ cs, isSafe c = true := by
  refine ⟨?_, safe_of_digits ?_⟩
  · rintro rfl
    cases h
  · unfold read? at h
    dsimp only at h
    have exponent {empty : Bool} {rest : List Char} {f : Int → Literal}
        (same : (if empty = true then none else (exponent? rest).map f) = some l) :
        ∀ c ∈ rest, isSafe c = true := by
      split at same
      · cases same
      · obtain ⟨e, read, -⟩ := Option.map_eq_some_iff.1 same
        exact safe_of_exponent? read
    split at h
    next rest same =>
      rw [same]
      exact List.forall_mem_cons.2 ⟨rfl, safe_of_digits (exponent h)⟩
    · exact exponent h

theorem isAlpha_of_toLower {c : Char} (h : c.toLower.isAlpha = true) : c.isAlpha = true := by
  by_cases upper : c.isUpper = true
  · exact (Bool.or_eq_true _ _).mpr (.inl upper)
  · have same : c.toLower = c := dif_neg fun range => upper (decide_eq_true range)
    rwa [same] at h

theorem safe_of_decimal {text : String} {x : Float} (h : Decimal.read text = .ok x) :
    (sign text.toList).2 ≠ [] ∧ ∀ c ∈ text.toList, isSafe c = true := by
  -- `nan`, `inf` and `infinity`, in any case, consist of letters.
  have word (w : String) (letters : w.toList ≠ [] ∧ w.toList.all Char.isAlpha = true)
      (same : String.ofList ((sign text.toList).2.map Char.toLower) = w) :
      (sign text.toList).2 ≠ [] ∧ ∀ c ∈ text.toList, isSafe c = true := by
    subst same
    rw [String.toList_ofList, List.all_eq_true] at letters
    refine ⟨by simpa using letters.1, safe_of_sign fun c member => ?_⟩
    have := isAlpha_of_toLower (letters.2 _ (List.mem_map_of_mem member))
    simp [isSafe, Char.isAlphanum, this]
  unfold Decimal.read at h
  dsimp only at h
  split at h
  · cases h
  · split at h
    · cases h
    next magnitude =>
      split at magnitude
      next same => exact word "nan" (by decide) same
      · split at magnitude
        next same =>
          obtain same | same := same
          · exact word "inf" (by decide) same
          · exact word "infinity" (by decide) same
        · obtain ⟨l, read, -⟩ := Option.map_eq_some_iff.1 magnitude
          obtain ⟨nonempty, safe⟩ := safe_of_read? read
          exact ⟨nonempty, safe_of_sign safe⟩

theorem bare_of_realText? {text : String} {x : Float} (h : realText? text = some x) :
    Bare text.toList := by
  have special (words : List String)
      (bare : ∀ w ∈ words, w.toList ≠ [] ∧ w.toList ≠ ['-'] ∧ w.toList.all isSafe = true) :
      words.contains text = true → Bare text.toList := by
    intro member
    obtain ⟨nonempty, dash, safe⟩ := bare text (by simpa using member)
    obtain ⟨c, cs, same⟩ := List.exists_cons_of_ne_nil nonempty
    refine ⟨⟨c, cs, same, ?_⟩, List.all_eq_true.mp safe⟩
    rintro rfl rfl
    exact dash same
  unfold realText? at h
  split at h
  next member => exact special _ (by decide) member
  · split at h
    next member => exact special _ (by decide) member
    · split at h
      next member => exact special _ (by decide) member
      · split at h
        next read =>
          obtain ⟨magnitude, safe⟩ := safe_of_decimal read
          refine ⟨?_, safe⟩
          cases same : text.toList with
          | nil => exact absurd rfl (same ▸ magnitude)
          | cons c cs =>
              refine ⟨c, cs, rfl, ?_⟩
              rintro rfl rfl
              exact absurd rfl (same ▸ magnitude)
        · cases h

theorem realText?_of_readsBack {x : Float} (h : ReadsBack (.real x)) :
    realText? (Value.yamlNumber (.real x)) = some x := by
  have kind := kind_of_plainValue? (plainValue?_of_readsBack h)
  generalize same : Value.number (.real x) = w at kind
  cases kind with
  | real read =>
      cases same
      exact read
  | _ => cases same

theorem naturalText?_of_readsBack {n : Nat} (h : ReadsBack (.natural n)) :
    naturalText? (toString n) = some n := by
  have kind := kind_of_plainValue? (plainValue?_of_readsBack h)
  generalize same : Value.number (.natural n) = w at kind
  cases kind with
  | natural read =>
      cases same
      exact read
  | zero signed =>
      cases same
      cases signed
  | _ => cases same

/-! ## Words -/

theorem word_of_isWord {s : String} (h : isWord s = true) : Word s.toList := by
  simp only [isWord, Bool.and_eq_true, List.all_eq_true] at h
  exact ⟨by simpa using h.1.1, h.1.2⟩

theorem of_letter {p : Char → Prop} {c : Char} (letter : (c.isAlpha || c == '_') = true)
    (h : ∀ n < 128, ((Char.ofNat n).isAlpha || Char.ofNat n == '_') = true → p (Char.ofNat n)) :
    p c := by
  have safe : isSafe c = true := by
    obtain alpha | same := Bool.or_eq_true_iff.1 letter
    · simp [isSafe, Char.isAlphanum, alpha]
    · simp [isSafe, same]
  have := h c.toNat (toNat_lt_of_isSafe safe)
  rw [Char.ofNat_toNat] at this
  exact this letter

theorem digitsText?_of_letter {c : Char} {cs : List Char} (letter : (c.isAlpha || c == '_') = true) :
    digitsText? 10 (c :: cs) = none := by
  have large : (Text.hexDigit? c).all (10 ≤ ·) = true :=
    of_letter (p := fun c => (Text.hexDigit? c).all (10 ≤ ·) = true) letter (by decide)
  have fails {step : Option Nat → Char → Option Nat} (stays : ∀ c, step none c = none) :
      ∀ cs : List Char, cs.foldl step none = none := by
    intro cs
    induction cs with
    | nil => rfl
    | cons c cs ih => rw [List.foldl_cons, stays, ih]
  rw [digitsText?, List.isEmpty_cons, if_neg Bool.false_ne_true, List.foldl_cons]
  have first : (do
      let d ← Text.hexDigit? c
      if d < 10 then return 10 * (← (some 0 : Option Nat)) + d else none : Option Nat) = none := by
    cases digit : Text.hexDigit? c with
    | none => rfl
    | some d =>
        have : ¬ d < 10 := by simpa [digit] using large
        simp [this]
  rw [first]
  refine fails (fun c => ?_) cs
  cases Text.hexDigit? c <;> simp

section

variable {c : Char} {cs : List Char}

theorem sign_of_letter (letter : (c.isAlpha || c == '_') = true) :
    sign (c :: cs) = (false, c :: cs) := by
  have plain : c ≠ '-' ∧ c ≠ '+' :=
    of_letter (p := fun c => c ≠ '-' ∧ c ≠ '+') letter (by decide)
  unfold sign
  split
  next same => exact absurd (List.cons.inj same).1 plain.1
  next same => exact absurd (List.cons.inj same).1 plain.2
  · rfl

theorem hasLeadingZero_of_letter (letter : (c.isAlpha || c == '_') = true) :
    hasLeadingZero (c :: cs) = false := by
  have other : c ≠ '0' := of_letter (p := fun c => c ≠ '0') letter (by decide)
  unfold hasLeadingZero
  rw [sign_of_letter letter]
  split
  next same => exact absurd (List.cons.inj same).1 other
  · rfl

theorem signedText?_of_letter (letter : (c.isAlpha || c == '_') = true) :
    signedText? (c :: cs) = none := by
  have other : c ≠ '-' ∧ c ≠ '+' ∧ c ≠ '0' :=
    of_letter (p := fun c => c ≠ '-' ∧ c ≠ '+' ∧ c ≠ '0') letter (by decide)
  have whole : wholeText? (c :: cs) = none := by
    unfold wholeText?
    split
    next same => exact absurd (List.cons.inj same).1 other.2.2
    next same => exact absurd (List.cons.inj same).1 other.2.2
    next same => exact absurd (List.cons.inj same).1 other.2.2
    · rw [hasLeadingZero_of_letter letter, digitsText?_of_letter letter]
      rfl
  unfold signedText?
  split
  next same => exact absurd (List.cons.inj same).1 other.1
  next same => exact absurd (List.cons.inj same).1 other.2.1
  · rw [whole]
    rfl

theorem read?_of_letter (letter : (c.isAlpha || c == '_') = true) :
    read? (c :: cs) = none := by
  have other : c ≠ '.' ∧ c.isDigit = false :=
    of_letter (p := fun c => c ≠ '.' ∧ c.isDigit = false) letter (by decide)
  have digits : digits (c :: cs) = ([], c :: cs) := by
    simp [digits, other.2]
  unfold read?
  rw [digits]
  dsimp only
  split
  next same => exact absurd (List.cons.inj same).1 other.1
  · rfl

end

theorem read_of_letter {s : String} {c : Char} {cs : List Char} (same : s.toList = c :: cs)
    (letter : (c.isAlpha || c == '_') = true) : Decimal.read s = .error .malformed ∨
      ∃ x : Float, Decimal.read s = .ok x ∧ x.isFinite = false := by
  unfold Decimal.read
  rw [same]
  dsimp only
  rw [List.isEmpty_cons, if_neg Bool.false_ne_true, sign_of_letter letter]
  dsimp only
  rw [read?_of_letter letter]
  split
  · exact .inl rfl
  next x magnitude =>
    refine .inr ⟨x, rfl, ?_⟩
    split at magnitude
    · cases magnitude
      rfl
    · split at magnitude
      · cases magnitude
        rfl
      · cases magnitude

theorem realText?_of_word {s : String} (word : Word s.toList) : realText? s = none := by
  obtain ⟨c, cs, same, -, point⟩ := word.exists_cons
  have letter := word.letters c (same ▸ List.mem_cons_self)
  have special (words : List String)
      (signs : ∀ w ∈ words, w.toList.head?.any (fun c => c.isAlpha || c == '_') = false) :
      ¬ words.contains s = true := by
    intro member
    have := signs s (by simpa using member)
    rw [same, List.head?_cons, Option.any_some, letter] at this
    cases this
  rw [realText?, if_neg (special _ (by decide)), if_neg (special _ (by decide)),
    if_neg (special _ (by decide))]
  obtain failed | ⟨x, read, infinite⟩ := read_of_letter same letter
  · rw [failed]
  · rw [read]
    exact if_neg (by simp [infinite])

theorem plainValue?_of_isWord {s : String} (h : isWord s = true) :
    plainValue? s = some (.text s) := by
  have word := word_of_isWord h
  obtain ⟨c, cs, same, -, point⟩ := word.exists_cons
  have letter := word.letters c (same ▸ List.mem_cons_self)
  have free : ∀ w ∈ Value.reservedWords, s ≠ w := by
    simp only [isWord, Bool.and_eq_true] at h
    rintro w member rfl
    simp [member] at h
  have tilde : s ≠ "~" := by
    rintro rfl
    cases h
  have some_ : s.isEmpty = false := by
    simp only [isWord, Bool.and_eq_true] at h
    simpa using h.1.1
  have null : isNullText s = false := by
    simp only [Value.reservedWords, List.forall_mem_cons] at free
    simp [isNullText, tilde, free]
  have flag : flagText? s = none := by
    simp only [Value.reservedWords, List.forall_mem_cons] at free
    simp [flagText?, free]
  unfold plainValue?
  simp only [some_, null, flag, same, signedText?_of_letter letter, hasLeadingZero_of_letter letter,
    Bool.or_self, Bool.false_eq_true, if_false]
  rw [realText?_of_word word]

end AnimatedCanvas.Yaml
