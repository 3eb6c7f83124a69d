import AnimatedCanvas.Proofs.Document.Printed
import AnimatedCanvas.Proofs.Document.Represents
import AnimatedCanvas.Proofs.Text
import Mathlib.Data.List.DropRight

namespace AnimatedCanvas.Json

open Decimal.Literal (digits)

/-! ## Texts -/

theorem unit?_hexPair {n : Nat} (small : n < 256) :
    unit? '0' '0' (Nat.digitChar (n / 16)) (Nat.digitChar (n % 16)) = some n := by
  have zero : Text.hexDigit? '0' = some 0 := rfl
  have high := Text.hexDigit?_digitChar (n / 16) (by omega)
  have low := Text.hexDigit?_digitChar (n % 16) (by omega)
  simp [unit?, Text.hexValue?, zero, high, low]
  omega

theorem units?_cons {c : Char} {cs : List Char} (printed : ¬ c.toNat < 0x20) (quote : c ≠ '"')
    (backslash : c ≠ '\\') :
    units? (c :: cs) = (units? cs).bind fun p => some (c.toNat :: p.1, p.2) := by
  rw [units?.eq_def]
  split
  · simp_all
  · simp_all
  · simp_all
  · simp_all
  next same =>
    cases same
    rw [if_neg printed]
    rfl

theorem units?_escape (c : Char) (cs : List Char) :
    units? ((Value.jsonEscape c).toList ++ cs) =
      (units? cs).bind fun p => some (c.toNat :: p.1, p.2) := by
  unfold Value.jsonEscape
  split
  · rfl
  · rfl
  · rfl
  · rfl
  · rfl
  next quote backslash _ _ _ =>
    split
    next eight =>
      rw [eight]
      rfl
    split
    next twelve =>
      rw [twelve]
      rfl
    split
    next control =>
      have text : ("\\u00" ++ String.ofList (Text.hexPair c.toNat)).toList ++ cs =
          '\\' :: 'u' :: '0' :: '0' :: Nat.digitChar (c.toNat / 16) ::
            Nat.digitChar (c.toNat % 16) :: cs := by
        simp [Text.hexPair]
      rw [text, units?, unit?_hexPair (by omega)]
      rfl
    next printed =>
      rw [String.toList_singleton]
      exact units?_cons printed quote backslash

theorem units?_flatMap_escape (cs rest : List Char) :
    units? (cs.flatMap (fun c => (Value.jsonEscape c).toList) ++ '"' :: rest) =
      some (cs.map Char.toNat, rest) := by
  induction cs with
  | nil => rfl
  | cons c cs ih => rw [List.flatMap_cons, List.append_assoc, units?_escape, ih]; rfl

theorem isHalf_toNat (c : Char) : isHighUnit c.toNat = false ∧ isLowUnit c.toNat = false := by
  have valid : c.toNat < 0xd800 ∨ 0xdfff < c.toNat ∧ c.toNat < 0x110000 := c.valid
  simp only [isHighUnit, isLowUnit, Bool.and_eq_false_iff, decide_eq_false_iff_not]
  omega

theorem characters?_toNat (cs : List Char) : characters? (cs.map Char.toNat) = some cs := by
  induction cs with
  | nil => rfl
  | cons c cs ih =>
      obtain ⟨high, low⟩ := isHalf_toNat c
      cases cs with
      | nil => simp [characters?, high, low]
      | cons d cs =>
          rw [List.map_cons, List.map_cons, characters?, high, low, ← List.map_cons, ih]
          simp

theorem toList_jsonText (s : String) :
    (Value.jsonText s).toList =
      '"' :: (s.toList.flatMap (fun c => (Value.jsonEscape c).toList) ++ ['"']) := by
  simp [Value.jsonText, String.toList_join, List.flatMap_map]

theorem text?_escape (s : String) (rest : List Char) :
    text? (s.toList.flatMap (fun c => (Value.jsonEscape c).toList) ++ '"' :: rest) =
      some (some s, rest) := by
  simp [text?, units?_flatMap_escape, characters?_toNat]

/-! ## Numbers -/

def EndsNumber (rest : List Char) : Prop :=
  ∀ c cs, rest = c :: cs → c.isDigit = false ∧ c ≠ '.' ∧ c ≠ 'e' ∧ c ≠ 'E'

theorem digits_append {rest : List Char} (ends : EndsNumber rest) (cs : List Char) :
    digits (cs ++ rest) = ((digits cs).1, (digits cs).2 ++ rest) := by
  induction cs with
  | nil =>
      cases rest with
      | nil => rfl
      | cons c rest => simp [digits, (ends c rest rfl).1]
  | cons c cs ih =>
      simp only [digits, Prod.mk.injEq] at ih ⊢
      by_cases digit : c.isDigit = true
      · simp [digit, ih]
      · simp [digit]

theorem fraction?_of_ne_point {cs : List Char} (h : ∀ c rest, cs = c :: rest → c ≠ '.') :
    fraction? cs = some ([], cs) := by
  unfold fraction?
  split
  · exact absurd rfl (h _ _ rfl)
  · rfl

theorem fraction?_append {cs ds more rest : List Char} (ends : EndsNumber rest)
    (h : fraction? cs = some (ds, more)) : fraction? (cs ++ rest) = some (ds, more ++ rest) := by
  cases cs with
  | nil =>
      cases h
      exact fraction?_of_ne_point fun c cs same => (ends c cs same).2.1
  | cons c cs =>
      by_cases point : c = '.'
      · subst point
        rw [List.cons_append, fraction?, digits_append ends]
        rw [fraction?] at h
        dsimp only at h ⊢
        split at h
        · cases h
        next some_ =>
          cases h
          rw [if_neg some_]
      · rw [fraction?_of_ne_point (by simpa using point)] at h
        cases h
        exact fraction?_of_ne_point (by simpa using point)

theorem sign_append {cs : List Char} (some_ : cs ≠ []) (rest : List Char) :
    Decimal.Literal.sign (cs ++ rest) =
      ((Decimal.Literal.sign cs).1, (Decimal.Literal.sign cs).2 ++ rest) := by
  cases cs with
  | nil => exact absurd rfl some_
  | cons c cs =>
      rw [List.cons_append]
      unfold Decimal.Literal.sign
      split <;> simp_all

theorem exponent?_append {cs more rest : List Char} {e : Option (Bool × List Char)}
    (ends : EndsNumber rest) (h : exponent? cs = some (e, more)) :
    exponent? (cs ++ rest) = some (e, more ++ rest) := by
  cases cs with
  | nil =>
      cases h
      cases rest with
      | nil => rfl
      | cons c rest =>
          obtain ⟨-, -, lower, upper⟩ := ends c rest rfl
          simp [exponent?, lower, upper]
  | cons c cs =>
      rw [List.cons_append, exponent?]
      rw [exponent?] at h
      split at h
      next marked =>
        rw [if_pos marked]
        cases cs with
        | nil => cases h
        | cons d ds =>
            rw [List.cons_append, ← List.cons_append, sign_append (by simp)]
            dsimp only at h ⊢
            rw [digits_append ends]
            split at h
            · cases h
            next found =>
              cases h
              rw [if_neg found]
      next other =>
        rw [if_neg other]
        cases h
        rfl

def unsigned? (negative : Bool) : Parser JsonNumber := fun cs => do
  let (whole, cs) := digits cs
  if whole.isEmpty || (whole.head? == some '0' && whole.length != 1) then none
  else
    let (fraction, cs) ← fraction? cs
    let (exponent, cs) ← exponent? cs
    return ({ negative, whole, fraction, exponent }, cs)

theorem number?_of_ne_minus {cs : List Char} (h : ∀ c rest, cs = c :: rest → c ≠ '-') :
    number? cs = unsigned? false cs := by
  unfold number?
  split
  next cs same =>
    split at same
    · exact absurd rfl (h _ _ rfl)
    · cases same
      rfl

theorem unsigned?_append {negative : Bool} {cs more rest : List Char} {m : JsonNumber}
    (ends : EndsNumber rest) (h : unsigned? negative cs = some (m, more)) :
    unsigned? negative (cs ++ rest) = some (m, more ++ rest) := by
  unfold unsigned? at h ⊢
  rw [digits_append ends]
  dsimp only at h ⊢
  split at h
  · cases h
  next whole =>
    rw [if_neg whole]
    obtain ⟨⟨ds, afterPoint⟩, fraction, h⟩ := Option.bind_eq_some_iff.1 h
    obtain ⟨⟨e, afterExponent⟩, exponent, h⟩ := Option.bind_eq_some_iff.1 h
    cases h
    rw [fraction?_append ends fraction]
    simp [exponent?_append ends exponent]

theorem number?_append {cs more rest : List Char} {m : JsonNumber}
    (ends : EndsNumber rest) (h : number? cs = some (m, more)) :
    number? (cs ++ rest) = some (m, more ++ rest) := by
  cases cs with
  | nil => cases h
  | cons c cs =>
      by_cases minus : c = '-'
      · subst minus
        exact unsigned?_append ends h
      · rw [number?_of_ne_minus (by simpa using minus)] at h ⊢
        exact unsigned?_append ends h

theorem exists_cons_of_number? {cs more : List Char} {m : JsonNumber}
    (h : number? cs = some (m, more)) :
    ∃ c rest, cs = c :: rest ∧ (c = '-' ∨ c.isDigit = true) := by
  cases cs with
  | nil => cases h
  | cons c cs =>
      refine ⟨c, cs, rfl, ?_⟩
      by_cases minus : c = '-'
      · exact .inl minus
      · rw [number?_of_ne_minus (by simpa using minus)] at h
        by_cases digit : c.isDigit = true
        · exact .inr digit
        · simp [unsigned?, digits, digit] at h

/-! ## Values -/

def Blank (cs : List Char) : Prop := ∀ c ∈ cs, isSpace c = true

theorem Blank.skipSpace_append {gap : List Char} (blank : Blank gap) (cs : List Char) :
    skipSpace (gap ++ cs) = skipSpace cs :=
  List.dropWhile_append_of_pos blank

theorem skipSpace_idem (cs : List Char) : skipSpace (skipSpace cs) = skipSpace cs :=
  List.dropWhile_idempotent isSpace cs

theorem skipSpace_cons {c : Char} {cs : List Char} (solid : isSpace c = false) :
    skipSpace (c :: cs) = c :: cs :=
  List.dropWhile_cons_of_neg (by simp [solid])

def Closes (rest : List Char) : Prop :=
  ∀ c cs, rest = c :: cs → c = ',' ∨ c = ']' ∨ c = '\x7d' ∨ isSpace c = true

theorem Closes.endsNumber {rest : List Char} (h : Closes rest) : EndsNumber rest := by
  intro c cs same
  obtain rfl | rfl | rfl | blank := h c cs same
  · decide
  · decide
  · decide
  · obtain ((rfl | rfl) | rfl) | rfl : ((c = ' ' ∨ c = '\t') ∨ c = '\n') ∨ c = '\r' := by
      simpa [isSpace] using blank
    all_goals decide

theorem Blank.closes {gap : List Char} (blank : Blank gap) {rest : List Char} (h : Closes rest) :
    Closes (gap ++ rest) := by
  cases gap with
  | nil => exact h
  | cons c gap =>
      rintro _ _ ⟨⟩
      exact .inr (.inr (.inr (blank c List.mem_cons_self)))

/-- That a value is read from its text, whatever follows. Two steps per character are enough. -/
structure Takes (text : List Char) (j : Json) : Prop where
  starts : ∃ c cs, skipSpace text = c :: cs ∧ c ≠ ']'
  value : ∀ fuel rest, Closes rest → 2 * (text ++ rest).length ≤ fuel →
    value? fuel (text ++ rest) = some (j, rest)

theorem value?_skipSpace (fuel : Nat) (cs : List Char) :
    value? fuel (skipSpace cs) = value? fuel cs := by
  cases fuel with
  | zero => rfl
  | succ fuel =>
      rw [value?.eq_def, value?.eq_def (fuel + 1) cs]
      dsimp only
      rw [skipSpace_idem]

theorem Takes.indent {text : List Char} {j : Json} (h : Takes text j) {margin : List Char}
    (blank : Blank margin) : Takes (margin ++ text) j where
  starts := by
    rw [blank.skipSpace_append]
    exact h.starts
  value := by
    intro fuel rest closes enough
    rw [← value?_skipSpace, List.append_assoc, blank.skipSpace_append, value?_skipSpace]
    refine h.value fuel rest closes ?_
    simp only [List.length_append] at enough ⊢
    omega

theorem ne_of_starts_number {c d : Char} (first : c = '-' ∨ c.isDigit = true)
    (other : d ≠ '-' ∧ d.isDigit = false) : c ≠ d := by
  rintro rfl
  simp [other] at first

theorem isSpace_of_starts_number {c : Char} (first : c = '-' ∨ c.isDigit = true) :
    isSpace c = false := by
  simp [isSpace, ne_of_starts_number first (d := ' ') (by decide),
    ne_of_starts_number first (d := '\t') (by decide),
    ne_of_starts_number first (d := '\n') (by decide),
    ne_of_starts_number first (d := '\r') (by decide)]

theorem value?_of_starts_number {c : Char} {cs : List Char} (first : c = '-' ∨ c.isDigit = true)
    (fuel : Nat) :
    value? (fuel + 1) (c :: cs) = (number? (c :: cs)).map fun p => (.number p.1, p.2) := by
  rw [value?.eq_def]
  dsimp only
  rw [skipSpace_cons (isSpace_of_starts_number first)]
  split
  next h => cases h
  next h => cases h; exact absurd rfl (ne_of_starts_number first (d := '"') (by decide))
  next h => cases h; exact absurd rfl (ne_of_starts_number first (d := '[') (by decide))
  next h => cases h; exact absurd rfl (ne_of_starts_number first (d := '\x7b') (by decide))
  next h => cases h; exact absurd rfl (ne_of_starts_number first (d := 't') (by decide))
  next h => cases h; exact absurd rfl (ne_of_starts_number first (d := 'f') (by decide))
  next h => cases h; exact absurd rfl (ne_of_starts_number first (d := 'n') (by decide))
  · rfl

theorem takes_number {text : List Char} {m : JsonNumber} (h : number? text = some (m, [])) :
    Takes text (.number m) := by
  obtain ⟨c, cs, rfl, first⟩ := exists_cons_of_number? h
  refine ⟨⟨c, cs, skipSpace_cons (isSpace_of_starts_number first),
    ne_of_starts_number first (by decide)⟩, fun fuel rest closes enough => ?_⟩
  rw [List.cons_append, List.length_cons] at enough
  obtain ⟨fuel, rfl⟩ := Nat.exists_eq_add_of_lt (show 0 < fuel by omega)
  rw [Nat.zero_add, List.cons_append, value?_of_starts_number first, ← List.cons_append,
    number?_append closes.endsNumber h]
  rfl

theorem takes_text (s : String) : Takes (Value.jsonText s).toList (.text (some s)) := by
  rw [toList_jsonText]
  refine ⟨⟨_, _, rfl, by decide⟩, fun fuel rest _ enough => ?_⟩
  rw [List.cons_append, List.length_cons] at enough
  obtain ⟨fuel, rfl⟩ := Nat.exists_eq_add_of_lt (show 0 < fuel by omega)
  rw [Nat.zero_add, List.cons_append, List.append_assoc, List.singleton_append, value?.eq_def]
  change (text? _).map _ = _
  rw [text?_escape]
  rfl

theorem takes_flag (b : Bool) : Takes (if b then "true" else "false").toList (.flag b) := by
  refine ⟨by cases b <;> exact ⟨_, _, rfl, by decide⟩, fun fuel rest _ enough => ?_⟩
  obtain ⟨fuel, rfl⟩ := Nat.exists_eq_add_of_lt (show 0 < fuel by
    cases b <;> simp at enough <;> omega)
  cases b <;> rfl

theorem items?_of_takes {texts : List (List Char)} {js : List Json}
    (each : List.Forall₂ Takes texts js) (nonempty : texts ≠ []) {gap : List Char}
    (blank : Blank gap) :
    ∀ fuel rest, 2 * ([','].intercalate texts ++ (gap ++ ']' :: rest)).length + 1 ≤ fuel →
      items? fuel ([','].intercalate texts ++ (gap ++ ']' :: rest)) = some (js, rest) := by
  induction each with
  | nil => exact absurd rfl nonempty
  | @cons text j texts js first others ih =>
      intro fuel rest enough
      obtain ⟨fuel, rfl⟩ := Nat.exists_eq_add_of_lt (show 0 < fuel by omega)
      rw [Nat.zero_add] at enough ⊢
      rw [items?.eq_def]
      dsimp only
      cases others with
      | nil =>
          rw [List.intercalate_singleton] at enough ⊢
          rw [first.value fuel (gap ++ ']' :: rest) (blank.closes (by simp [Closes])) (by omega)]
          rw [Option.bind_eq_bind, Option.bind_some, blank.skipSpace_append]
          rfl
      | @cons text' j' texts js second others =>
          have tail := ih (by simp) fuel rest
          rw [List.intercalate_cons_cons] at enough ⊢
          simp only [List.append_assoc, List.nil_append, List.cons_append] at enough ⊢
          simp only [List.length_append, List.length_cons] at enough tail
          rw [first.value fuel (',' :: _) (by simp [Closes]) (by simp; omega)]
          change (items? fuel _).bind _ = _
          rw [tail (by omega)]
          rfl

theorem items?_skipSpace (fuel : Nat) (cs : List Char) :
    items? fuel (skipSpace cs) = items? fuel cs := by
  cases fuel with
  | zero => rfl
  | succ fuel =>
      rw [items?.eq_def, items?.eq_def (fuel + 1) cs]
      dsimp only
      rw [value?_skipSpace]

theorem value?_list {cs : List Char} (starts : ∃ c more, skipSpace cs = c :: more ∧ c ≠ ']')
    (fuel : Nat) :
    value? (fuel + 1) ('[' :: cs) = (items? fuel cs).map fun p => (.list p.1, p.2) := by
  obtain ⟨c, more, same, other⟩ := starts
  rw [value?.eq_def]
  dsimp only
  rw [skipSpace_cons rfl]
  split
  next h => cases h
  next h => cases h
  next h =>
    cases h
    rw [same]
    split
    next h => cases h; exact absurd rfl other
    · rw [← items?_skipSpace fuel cs, same]
  next h => cases h
  next h => cases h
  next h => cases h
  next h => cases h
  next unlisted _ _ _ _ => exact absurd rfl (unlisted _)

theorem exists_cons_intercalate {texts : List (List Char)} {js : List Json}
    (each : List.Forall₂ Takes texts js) (nonempty : texts ≠ []) (rest : List Char) :
    ∃ c cs, skipSpace ([','].intercalate texts ++ rest) = c :: cs ∧ c ≠ ']' := by
  cases each with
  | nil => exact absurd rfl nonempty
  | @cons text j texts js first others =>
      obtain ⟨c, cs, same, other⟩ := first.starts
      have begins (more : List Char) : ∃ cs, skipSpace (text ++ more) = c :: cs := by
        refine ⟨cs ++ more, ?_⟩
        rw [skipSpace, List.dropWhile_append, ← skipSpace, same]
        rfl
      cases texts with
      | nil =>
          obtain ⟨cs, begins⟩ := begins rest
          exact ⟨c, cs, by rw [List.intercalate_singleton, begins], other⟩
      | cons text' texts =>
          obtain ⟨cs, begins⟩ := begins ([','] ++ [','].intercalate (text' :: texts) ++ rest)
          exact ⟨c, cs, by rw [List.intercalate_cons_cons, List.append_assoc, List.append_assoc,
            ← List.append_assoc [','], begins], other⟩

theorem takes_list {texts : List (List Char)} {js : List Json}
    (each : List.Forall₂ Takes texts js) (nonempty : texts ≠ []) {gap : List Char}
    (blank : Blank gap) :
    Takes ('[' :: ([','].intercalate texts ++ (gap ++ [']']))) (.list js) := by
  refine ⟨⟨_, _, rfl, by decide⟩, fun fuel rest _ enough => ?_⟩
  rw [List.cons_append, List.length_cons, List.append_assoc, List.append_assoc,
    List.singleton_append] at enough
  obtain ⟨fuel, rfl⟩ := Nat.exists_eq_add_of_lt (show 0 < fuel by omega)
  have inner := items?_of_takes each nonempty blank fuel rest (by omega)
  have starts := exists_cons_intercalate each nonempty (gap ++ ']' :: rest)
  rw [Nat.zero_add, List.cons_append, List.append_assoc, List.append_assoc, List.singleton_append,
    value?_list starts, inner]
  rfl

def fieldText (f : String × List Char) : List Char := (Value.jsonText f.1).toList ++ ':' :: f.2

structure TakesField (f : String × List Char) (e : Option String × Json) : Prop where
  name : e.1 = some f.1
  value : Takes f.2 e.2

theorem text?_fieldText (name : String) (rest : List Char) :
    ∃ cs, (Value.jsonText name).toList ++ rest = '"' :: cs ∧ text? cs = some (some name, rest) := by
  rw [toList_jsonText, List.cons_append, List.append_assoc, List.singleton_append]
  exact ⟨_, rfl, text?_escape name rest⟩

theorem entries?_skipSpace (fuel : Nat) (cs : List Char) :
    entries? fuel (skipSpace cs) = entries? fuel cs := by
  cases fuel with
  | zero => rfl
  | succ fuel =>
      rw [entries?.eq_def, entries?.eq_def (fuel + 1) cs]
      dsimp only
      rw [skipSpace_idem]

theorem entries?_indent {margin : List Char} (blank : Blank margin) (fuel : Nat) (cs : List Char) :
    entries? fuel (margin ++ cs) = entries? fuel cs := by
  rw [← entries?_skipSpace, blank.skipSpace_append, entries?_skipSpace]

theorem entries?_last {f : String × List Char} {e : Option String × Json} (field : TakesField f e)
    {gap : List Char} (blank : Blank gap) {fuel : Nat} {rest : List Char}
    (enough : 2 * (f.2 ++ (gap ++ '\x7d' :: rest)).length ≤ fuel) :
    entries? (fuel + 1) (fieldText f ++ (gap ++ '\x7d' :: rest)) = some ([e], rest) := by
  obtain ⟨name, text⟩ := f
  obtain ⟨key, j⟩ := e
  obtain ⟨rfl : key = some name, value⟩ := field
  obtain ⟨cs, same, read⟩ := text?_fieldText name (':' :: (text ++ (gap ++ '\x7d' :: rest)))
  rw [fieldText, List.append_assoc, List.cons_append, same, entries?.eq_def]
  dsimp only
  rw [skipSpace_cons rfl]
  change (text? cs).bind _ = _
  rw [read]
  change (value? fuel (text ++ (gap ++ '\x7d' :: rest))).bind _ = _
  rw [value.value fuel (gap ++ '\x7d' :: rest) (blank.closes (by simp [Closes])) enough]
  rw [Option.bind_some, blank.skipSpace_append]
  rfl

theorem entries?_next {f : String × List Char} {e : Option String × Json} (field : TakesField f e)
    {fuel : Nat} {more rest : List Char} {es : List (Option String × Json)}
    (enough : 2 * (f.2 ++ ',' :: more).length ≤ fuel)
    (others : entries? fuel more = some (es, rest)) :
    entries? (fuel + 1) (fieldText f ++ ',' :: more) = some (e :: es, rest) := by
  obtain ⟨name, text⟩ := f
  obtain ⟨key, j⟩ := e
  obtain ⟨rfl : key = some name, value⟩ := field
  obtain ⟨cs, same, read⟩ := text?_fieldText name (':' :: (text ++ ',' :: more))
  rw [fieldText, List.append_assoc, List.cons_append, same, entries?.eq_def]
  dsimp only
  rw [skipSpace_cons rfl]
  change (text? cs).bind _ = _
  rw [read]
  change (value? fuel (text ++ ',' :: more)).bind _ = _
  rw [value.value fuel (',' :: more) (by simp [Closes]) enough]
  change (entries? fuel more).bind _ = _
  rw [others]
  rfl

theorem entries?_of_takes {fields : List (String × List Char)} {es : List (Option String × Json)}
    (each : List.Forall₂ TakesField fields es) (nonempty : fields ≠ []) {margin gap : List Char}
    (indented : Blank margin) (blank : Blank gap) :
    ∀ fuel rest,
      2 * ([','].intercalate (fields.map (margin ++ fieldText ·)) ++
        (gap ++ '\x7d' :: rest)).length + 1 ≤ fuel →
      entries? fuel ([','].intercalate (fields.map (margin ++ fieldText ·)) ++
        (gap ++ '\x7d' :: rest)) = some (es, rest) := by
  induction each with
  | nil => exact absurd rfl nonempty
  | @cons f e fields es first others ih =>
      intro fuel rest enough
      obtain ⟨fuel, rfl⟩ := Nat.exists_eq_add_of_lt (show 0 < fuel by omega)
      rw [Nat.zero_add] at enough ⊢
      cases others with
      | nil =>
          rw [List.map_cons, List.map_nil, List.intercalate_singleton, List.append_assoc] at enough ⊢
          rw [entries?_indent indented]
          refine entries?_last first blank ?_
          simp only [fieldText, List.length_append, List.length_cons] at enough ⊢
          omega
      | @cons f' e' fields es second others =>
          have tail := ih (by simp) fuel rest
          rw [List.map_cons, List.map_cons, List.intercalate_cons_cons] at enough ⊢
          rw [← List.map_cons (f := (margin ++ fieldText ·))] at enough ⊢
          simp only [List.append_assoc, List.nil_append, List.cons_append] at enough ⊢
          rw [entries?_indent indented]
          refine entries?_next first ?_ (tail ?_)
          · simp only [fieldText, List.length_append, List.length_cons] at enough ⊢
            omega
          · simp only [fieldText, List.length_append, List.length_cons] at enough ⊢
            omega

theorem value?_object {cs more : List Char} (starts : skipSpace cs = '"' :: more) (fuel : Nat) :
    value? (fuel + 1) ('\x7b' :: cs) = (entries? fuel cs).map fun p => (.object p.1, p.2) := by
  rw [← entries?_skipSpace fuel cs, value?.eq_def]
  dsimp only
  rw [skipSpace_cons rfl]
  split
  next h => cases h
  next h => cases h
  next h => cases h
  next h =>
    cases h
    rw [starts]
    rfl
  next h => cases h
  next h => cases h
  next h => cases h
  next unlisted _ _ _ => exact absurd rfl (unlisted _)

theorem takes_object {fields : List (String × List Char)} {es : List (Option String × Json)}
    (each : List.Forall₂ TakesField fields es) (nonempty : fields ≠ []) {margin gap : List Char}
    (indented : Blank margin) (blank : Blank gap) :
    Takes ('\x7b' :: ([','].intercalate (fields.map (margin ++ fieldText ·)) ++ (gap ++ ['\x7d'])))
      (.object es) := by
  refine ⟨⟨_, _, rfl, by decide⟩, fun fuel rest _ enough => ?_⟩
  rw [List.cons_append, List.length_cons, List.append_assoc, List.append_assoc,
    List.singleton_append] at enough
  obtain ⟨fuel, rfl⟩ := Nat.exists_eq_add_of_lt (show 0 < fuel by omega)
  have inner := entries?_of_takes each nonempty indented blank fuel rest (by omega)
  obtain ⟨more, quote⟩ : ∃ more, skipSpace ([','].intercalate
      (fields.map (margin ++ fieldText ·)) ++ (gap ++ '\x7d' :: rest)) = '"' :: more := by
    obtain ⟨f, fields, rfl⟩ := List.exists_cons_of_ne_nil nonempty
    have begins (more : List Char) : ∃ cs, skipSpace (margin ++ fieldText f ++ more) = '"' :: cs := by
      rw [List.append_assoc, indented.skipSpace_append, fieldText, toList_jsonText, List.cons_append,
        List.cons_append, skipSpace_cons rfl]
      exact ⟨_, rfl⟩
    cases fields with
    | nil =>
        rw [List.map_singleton, List.intercalate_singleton]
        exact begins _
    | cons f' fields =>
        rw [List.map_cons, List.map_cons, List.intercalate_cons_cons, List.append_assoc,
          List.append_assoc]
        exact begins _
  rw [Nat.zero_add, List.cons_append, List.append_assoc, List.append_assoc, List.singleton_append,
    value?_object quote, inner]
  rfl

end AnimatedCanvas.Json
