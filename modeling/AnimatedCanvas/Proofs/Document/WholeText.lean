import AnimatedCanvas.Proofs.Binary64.Naturals
import AnimatedCanvas.Proofs.Document.YamlScalar

namespace AnimatedCanvas.Yaml

open Binary64 (value value_zero value_neg isNaN_neg beq_iff isNaN_of_isFinite isFinite_toFloat
  value_ofScientific)
open Decimal (digitsValue ofScientific)
open Decimal.Literal (digits sign exponent? read?)

theorem signedText?_eq (cs : List Char) :
    signedText? cs = (wholeText? (sign cs).2).map ((sign cs).1, ·) := by
  unfold signedText?
  split
  · rfl
  · rfl
  next minus plus =>
    have unsigned : sign cs = (false, cs) := by
      unfold sign
      split
      · exact absurd rfl (minus _)
      · exact absurd rfl (plus _)
      · rfl
    rw [unsigned]

theorem toNat_of_hexDigit? {c : Char} {d : Nat} (h : Text.hexDigit? c = some d) (small : d < 10) :
    c.isDigit = true ∧ d = c.toNat - '0'.toNat := by
  unfold Text.hexDigit? at h
  split at h
  next range =>
    cases h
    exact ⟨Bool.and_eq_true_iff.2 ⟨decide_eq_true range.1, decide_eq_true range.2⟩, rfl⟩
  · split at h
    · cases h
      omega
    · split at h
      · cases h
        omega
      · cases h

def addDigit (n : Option Nat) (c : Char) : Option Nat := do
  let d ← Text.hexDigit? c
  if d < 10 then return 10 * (← n) + d else none

theorem foldl_addDigit_none (cs : List Char) : cs.foldl addDigit none = none := by
  induction cs with
  | nil => rfl
  | cons c cs ih =>
      have fails : addDigit none c = none := by
        unfold addDigit
        cases Text.hexDigit? c <;> simp
      rw [List.foldl_cons, fails, ih]

theorem digits_of_foldl_addDigit {cs : List Char} {n : Nat} :
    ∀ {m : Nat}, cs.foldl addDigit (some m) = some n → (∀ c ∈ cs, c.isDigit = true) ∧
      cs.foldl (fun n c => 10 * n + (c.toNat - '0'.toNat)) m = n := by
  induction cs with
  | nil => simp
  | cons c cs ih =>
      intro m h
      rw [List.foldl_cons] at h
      cases digit : Text.hexDigit? c with
      | none =>
          rw [show addDigit (some m) c = none by simp [addDigit, digit], foldl_addDigit_none] at h
          cases h
      | some d =>
          by_cases small : d < 10
          · rw [show addDigit (some m) c = some (10 * m + d) by simp [addDigit, digit, small]] at h
            obtain ⟨isDigit, rfl⟩ := toNat_of_hexDigit? digit small
            obtain ⟨digits, same⟩ := ih h
            exact ⟨List.forall_mem_cons.2 ⟨isDigit, digits⟩, same⟩
          · rw [show addDigit (some m) c = none by simp [addDigit, digit, small],
              foldl_addDigit_none] at h
            cases h

theorem digits_of_digitsText? {cs : List Char} {n : Nat} (h : digitsText? 10 cs = some n) :
    cs ≠ [] ∧ (∀ c ∈ cs, c.isDigit = true) ∧ digitsValue cs = n := by
  unfold digitsText? at h
  split at h
  · cases h
  next nonempty => exact ⟨by simpa using nonempty, digits_of_foldl_addDigit h⟩

theorem digits_of_wholeText? {cs : List Char} {n : Nat} (h : wholeText? cs = some n) :
    ∃ c rest, cs = c :: rest ∧ c.isDigit = true ∧
      ∀ l, read? cs = some l → l.toFloat = ofScientific n 0 := by
  have prefixed (b : Char) (base : b.isDigit = false ∧ b ≠ '.' ∧ b ≠ 'e' ∧ b ≠ 'E')
      (rest : List Char) : read? ('0' :: b :: rest) = none := by
    have split : digits ('0' :: b :: rest) = (['0'], b :: rest) := by
      simp [digits, base.1, show Char.isDigit '0' = true from rfl]
    have none : exponent? (b :: rest) = none := by
      simp [exponent?, base.2.2]
    unfold read?
    rw [split]
    dsimp only
    split
    next same => exact absurd (List.cons.inj same).1 base.2.1
    · simp [none]
  unfold wholeText? at h
  split at h
  · exact ⟨_, _, rfl, rfl, by simp [prefixed]⟩
  · exact ⟨_, _, rfl, rfl, by simp [prefixed]⟩
  · exact ⟨_, _, rfl, rfl, by simp [prefixed]⟩
  · split at h
    · cases h
    · obtain ⟨nonempty, all, rfl⟩ := digits_of_digitsText? h
      obtain ⟨c, rest, rfl⟩ := List.exists_cons_of_ne_nil nonempty
      refine ⟨c, rest, rfl, all c List.mem_cons_self, fun l read => ?_⟩
      have whole : digits (c :: rest) = (c :: rest, []) := by
        simpa [digits] using all
      unfold read? at read
      rw [whole] at read
      cases read
      simp [Decimal.Literal.toFloat]

theorem ofList_map_toLower_ne {c : Char} {cs : List Char} {w : String} (digit : c.isDigit = true)
    (letter : w.toList.head?.any Char.isAlpha = true) :
    String.ofList ((c :: cs).map Char.toLower) ≠ w := by
  rintro rfl
  rw [String.toList_ofList, List.map_cons, List.head?_cons, Option.any_some] at letter
  have := isAlpha_of_toLower letter
  simp only [Char.isAlpha, Char.isUpper, Char.isLower, Char.isDigit, Bool.or_eq_true,
    Bool.and_eq_true, decide_eq_true_eq] at this digit
  grind

theorem realText?_of_signedText? {s : String} {negative : Bool} {n : Nat} {x : Float}
    (signed : signedText? s.toList = some (negative, n)) (read : realText? s = some x) :
    x = if negative then -ofScientific n 0 else ofScientific n 0 := by
  have special (words : List String)
      (signs : ∀ w ∈ words, signedText? w.toList = none) : ¬ words.contains s = true := by
    intro member
    rw [signs s (by simpa using member)] at signed
    cases signed
  rw [realText?, if_neg (special _ (by decide)), if_neg (special _ (by decide)),
    if_neg (special _ (by decide))] at read
  rw [signedText?_eq] at signed
  obtain ⟨m, whole, same⟩ := Option.map_eq_some_iff.1 signed
  obtain ⟨rfl, rfl⟩ := Prod.mk.inj same
  -- The text begins with a digit, as none of the words for infinities and for no number does.
  obtain ⟨c, rest, cs, digit, literal⟩ := digits_of_wholeText? whole
  unfold Decimal.read at read
  dsimp only at read
  rw [cs, if_neg (ofList_map_toLower_ne digit rfl), if_neg (not_or.2
    ⟨ofList_map_toLower_ne digit rfl, ofList_map_toLower_ne digit rfl⟩), ← cs] at read
  split at read
  next y done =>
    split at read
    · cases read
      split at done
      · cases done
      · split at done
        · cases done
        next z magnitude =>
          obtain ⟨l, found, rfl⟩ := Option.map_eq_some_iff.1 magnitude
          rw [literal l found] at done
          cases done
          rfl
    · cases read
  · cases read

theorem Kind.beq_of_realText? {s : String} {n : Number} {x : Float} (kind : Kind s (.number n))
    (read : realText? s = some x) (number : x.isNaN = false) : (x == n.toFloat) = true := by
  have whole {negative : Bool} {m : Nat} (signed : signedText? s.toList = some (negative, m))
      (small : m < 2 ^ 64) :
      value x = if negative then -value m.toUInt64.toFloat else value m.toUInt64.toFloat := by
    rw [realText?_of_signedText? signed read, ← (value_ofScientific small).2]
    cases negative with
    | false => rfl
    | true => exact value_neg _
  have finite {m : Nat} (small : m < 2 ^ 64) : m.toUInt64.toFloat.isNaN = false :=
    isNaN_of_isFinite (isFinite_toFloat small)
  generalize same : Value.number n = w at kind
  cases kind with
  | natural natural =>
      cases same
      obtain ⟨signed, small⟩ := naturalText?_eq_some.1 natural
      rw [Number.toFloat]
      exact beq_iff.2 ⟨number, finite small, whole signed small⟩
  | zero signed =>
      cases same
      have none := whole signed (by norm_num)
      rw [Number.toFloat]
      refine beq_iff.2 ⟨number, finite (by norm_num), none.trans ?_⟩
      rw [← (value_ofScientific (by norm_num)).2, if_pos rfl]
      exact neg_eq_zero.2 value_zero
  | @negative m signed small =>
      cases same
      have size : m < 2 ^ 64 := small.trans_lt (by norm_num)
      rw [Number.toFloat, Int.natAbs_neg, Int.natAbs_natCast]
      refine beq_iff.2 ⟨number, (isNaN_neg _).trans (finite size), (whole signed size).trans ?_⟩
      exact (value_neg _).symm
  | real read' =>
      cases same
      obtain rfl := Option.some.inj (read.symm.trans read')
      exact beq_iff.2 ⟨number, number, rfl⟩
  | _ => cases same

end AnimatedCanvas.Yaml
