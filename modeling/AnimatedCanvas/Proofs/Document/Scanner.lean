import AnimatedCanvas.Document.YamlToken
import Mathlib.Data.List.Basic

namespace AnimatedCanvas.Yaml

def isSafe (c : Char) : Bool := c.isAlphanum || c == '_' || c == '.' || c == '+' || c == '-'

theorem toNat_lt_of_isAlphanum {c : Char} (h : c.isAlphanum = true) : c.toNat < 128 := by
  have upper : 'Z'.val.toNat = 90 := rfl
  have lower : 'z'.val.toNat = 122 := rfl
  have digit : '9'.val.toNat = 57 := rfl
  delta Char.isAlphanum Char.isAlpha Char.isUpper Char.isLower Char.isDigit at h
  simp only [Bool.or_eq_true, Bool.and_eq_true, decide_eq_true_eq, UInt32.le_iff_toNat_le,
    ge_iff_le] at h
  change c.val.toNat < 128
  omega

theorem toNat_lt_of_isSafe {c : Char} (h : isSafe c = true) : c.toNat < 128 := by
  simp only [isSafe, Bool.or_eq_true, beq_iff_eq] at h
  obtain (((h | rfl) | rfl) | rfl) | rfl := h
  · exact toNat_lt_of_isAlphanum h
  all_goals decide

theorem of_isSafe {p : Char → Prop} (h : ∀ n < 128, isSafe (Char.ofNat n) = true → p (Char.ofNat n))
    {c : Char} (safe : isSafe c = true) : p c := by
  have := h c.toNat (toNat_lt_of_isSafe safe)
  rw [Char.ofNat_toNat] at this
  exact this safe

theorem solid_of_isSafe {c : Char} (h : isSafe c = true) :
    isSpaceOrTab c = false ∧ isBreak c = false ∧ c ≠ ':' :=
  of_isSafe (p := fun c => isSpaceOrTab c = false ∧ isBreak c = false ∧ c ≠ ':') (by decide) h

/-! ## Blanks -/

def Solid (cs : List Char) : Prop :=
  ∀ c more, cs = c :: more → isSpaceOrTab c = false ∧ isBreak c = false

theorem read?_of_solid {indent : Nat} {c : Cursor} (solid : Solid c.rest) (fuel : Nat) (g : Gap) :
    Gap.read? indent fuel c g = some (g, c) := by
  cases fuel with
  | zero => rfl
  | succ fuel =>
      rw [Gap.read?]
      split
      · rfl
      next ch more same =>
        obtain ⟨blank, ends⟩ := solid ch more same
        simp [blank, ends]

theorem read?_spaces {indent : Nat} {g : Gap} (spans : g.spansLines = true) {body : List Char}
    (solid : Solid body) (fuel : Nat) :
    ∀ {n : Nat} {c : Cursor}, c.rest = List.replicate n ' ' ++ body →
      Gap.read? indent (n + fuel) c g = some (g, c.skip n) := by
  intro n
  induction n with
  | zero =>
      intro c same
      exact read?_of_solid (by rwa [same]) _ g
  | succ n ih =>
      intro c same
      rw [Nat.add_right_comm, Gap.read?, same, List.replicate_succ, List.cons_append]
      have rest : (c.skip 1).rest = List.replicate n ' ' ++ body := by
        simp [Cursor.skip, same, List.replicate_succ]
      simp only [spans, ih rest]
      simp [isSpaceOrTab, Cursor.skip, Nat.add_assoc, Nat.add_comm 1 n]

def Cursor.nextLine (c : Cursor) (n : Nat) (body : List Char) : Cursor :=
  ⟨body, c.index + 1 + n, c.line + 1, n⟩

theorem readBreak_newline {c : Cursor} {more : List Char} (h : c.rest = '\n' :: more) :
    c.readBreak = (['\n'], ⟨more, c.index + 1, c.line + 1, 0⟩) := by
  simp [Cursor.readBreak, h, isBreak]

theorem read?_newline (indent : Nat) {n fuel : Nat} {c : Cursor} {body : List Char}
    (solid : Solid body)
    (h : c.rest = '\n' :: (List.replicate n ' ' ++ body)) (enough : n < fuel) :
    ∃ g, g.spansLines = true ∧ Gap.read? indent fuel c .empty = some (g, c.nextLine n body) := by
  obtain ⟨fuel, rfl⟩ := Nat.exists_eq_add_of_lt enough
  have ends : isBreak '\n' = true := rfl
  have blank : isSpaceOrTab '\n' = false := rfl
  refine ⟨{ Gap.empty with blanks := [], first := ['\n'], spansLines := true }, rfl, ?_⟩
  rw [Gap.read?, h]
  simp only [blank, ends, readBreak_newline h, Gap.empty, Bool.false_eq_true, if_false, if_true]
  rw [read?_spaces rfl solid fuel rfl]
  simp [Cursor.skip, Cursor.nextLine]

/-- What the indentation of a line may be followed by: nothing that is passed over. -/
def LineHead (body : List Char) : Prop :=
  ∀ c more, body = c :: more →
    isSpaceOrTab c = false ∧ isBreak c = false ∧ c ≠ '#' ∧ c.toNat ≠ 0xFEFF

theorem LineHead.solid {body : List Char} (h : LineHead body) : Solid body :=
  fun c more same => ⟨(h c more same).1, (h c more same).2.1⟩

/-! ## Unquoted scalars -/

structure Bare (text : List Char) : Prop where
  nonempty : ∃ c cs, text = c :: cs ∧ (c = '-' → cs ≠ [])
  safe : ∀ c ∈ text, isSafe c = true

theorem Bare.not_gap {ch : Char} {cs : List Char} (bare : Bare (ch :: cs)) (sign : ch = '-')
    (after : List Char) :
    ∃ d more, cs ++ after = d :: more ∧ isSpaceOrTab d = false ∧ isBreak d = false := by
  obtain ⟨c, rest, same, follows⟩ := bare.nonempty
  cases same
  cases cs with
  | nil => exact absurd rfl (follows sign)
  | cons d cs =>
      obtain ⟨blank, ends, -⟩ := solid_of_isSafe (bare.safe d (by simp))
      exact ⟨d, _, rfl, blank, ends⟩

theorem Bare.atGap_eq_false {ch : Char} {cs : List Char} (bare : Bare (ch :: cs))
    (after : List Char) : (ch == '-' && atGap (cs ++ after)) = false := by
  by_cases sign : ch = '-'
  · obtain ⟨d, more, same, blank, ends⟩ := bare.not_gap sign after
    simp [same, atGap, blank, ends]
  · simp [sign]

theorem Bare.startsPlain_eq_true {ch : Char} {cs : List Char} (bare : Bare (ch :: cs))
    (inFlow : Bool) (after : List Char) :
    Scanner.startsPlain inFlow ch (cs ++ after) = true := by
  by_cases sign : ch = '-'
  · obtain ⟨d, more, same, blank, ends⟩ := bare.not_gap sign after
    simp [Scanner.startsPlain, same, sign, blank]
  · -- No safe character but the minus sign has a meaning of its own.
    have plain := of_isSafe
      (p := fun c => c = '-' ∨ "-?:,[]\x7b\x7d#&*!|>'\"%@`".toList.contains c = false)
      (by decide) (bare.safe ch List.mem_cons_self)
    rw [Scanner.startsPlain, plain.resolve_left sign]
    rfl

theorem Bare.lineHead {text after : List Char} (bare : Bare text) : LineHead (text ++ after) := by
  obtain ⟨ch, cs, rfl, -⟩ := bare.nonempty
  intro c more same
  obtain rfl := (List.cons.inj same).1
  have safe := bare.safe ch List.mem_cons_self
  obtain ⟨blank, ends, -⟩ := solid_of_isSafe safe
  exact ⟨blank, ends, of_isSafe (p := fun c => c ≠ '#' ∧ c.toNat ≠ 0xFEFF) (by decide) safe⟩

theorem plainRun?_append {text : List Char} (safe : ∀ c ∈ text, isSafe c = true) (after : List Char)
    (stops : plainRun? false after = some []) : plainRun? false (text ++ after) = some text := by
  induction text with
  | nil => exact stops
  | cons c text ih =>
      obtain ⟨first, others⟩ := List.forall_mem_cons.1 safe
      obtain ⟨blank, ends, colon⟩ := solid_of_isSafe first
      rw [List.cons_append, plainRun?]
      simp [blank, ends, colon, ih others]

theorem head?_ne_comment {text : List Char} (bare : Bare text) (after : List Char) :
    ((text ++ after).head? == some '#') = false := by
  obtain ⟨c, cs, rfl, -⟩ := bare.nonempty
  have first := of_isSafe (p := fun c => c ≠ '#') (by decide) (bare.safe c List.mem_cons_self)
  simpa using first

theorem Bare.ne_nil {text : List Char} (bare : Bare text) : text ≠ [] := by
  obtain ⟨c, cs, rfl, -⟩ := bare.nonempty
  simp

theorem folded_empty : Gap.empty.folded = [] := rfl

theorem plain?_key (indent fuel : Nat) {c : Cursor} {text more : List Char} (bare : Bare text)
    (rest : c.rest = text ++ ':' :: more) (gap : atGap more = true)
    (mark : c.atDocumentMark = false) :
    plain? false indent (fuel + 1) c [] .empty = some (text, c.skip text.length, false) := by
  have run := plainRun?_append bare.safe (':' :: more)
    (by simp [plainRun?, gap, isSpaceOrTab, isBreak])
  have head := head?_ne_comment bare (':' :: more)
  rw [← rest] at run head
  have solid : Solid (c.skip text.length).rest := by
    simp [Cursor.skip, rest, Solid, isSpaceOrTab, isBreak]
  rw [plain?, mark, head, run]
  simp [bare.ne_nil, read?_of_solid solid, folded_empty]
  simp [Cursor.skip]

theorem plain?_line (fuel : Nat) {indent n : Nat} {c : Cursor} {text body : List Char}
    (bare : Bare text)
    (rest : c.rest = text ++ '\n' :: (List.replicate n ' ' ++ body)) (solid : Solid body)
    (out : n < indent) (mark : c.atDocumentMark = false) :
    plain? false indent (fuel + 1) c [] .empty =
      some (text, (c.skip text.length).nextLine n body, true) := by
  have run := plainRun?_append bare.safe ('\n' :: (List.replicate n ' ' ++ body))
    (by simp [plainRun?, isSpaceOrTab, isBreak])
  have head := head?_ne_comment bare ('\n' :: (List.replicate n ' ' ++ body))
  rw [← rest] at run head
  have skipped : (c.skip text.length).rest = '\n' :: (List.replicate n ' ' ++ body) := by
    simp [Cursor.skip, rest]
  obtain ⟨g, spans, read⟩ := read?_newline indent solid skipped
    (show n < c.rest.length by simp [rest]; omega)
  have later : ((c.skip text.length).nextLine n body).index ≠ c.index + text.length := by
    simp only [Cursor.nextLine, Cursor.skip]
    omega
  have column : ((c.skip text.length).nextLine n body).column < indent := out
  rw [plain?, mark, head, run]
  simp [bare.ne_nil, read, folded_empty, later, column, spans]

/-! ## Quoted scalars -/

def IsQuotable (c : Char) : Prop :=
  isSpaceOrTab c = false ∧ isBreak c = false ∧ c ≠ '\''

instance (c : Char) : Decidable (IsQuotable c) :=
  inferInstanceAs (Decidable (_ ∧ _ ∧ _))

theorem quoted?_line {after : List Char} (ends : after.head? ≠ some '\'') :
    ∀ {text : List Char} {c : Cursor} (fuel : Nat) (seen : List Char),
      (∀ ch ∈ text, IsQuotable ch) → c.rest = text ++ '\'' :: after → 0 < c.column →
      quoted? true (text.length + 1 + fuel) c seen =
        some (seen ++ text, c.skip (text.length + 1)) := by
  intro text
  induction text with
  | nil =>
      intro c fuel seen _ rest column
      have mark : c.atDocumentMark = false := by simp [Cursor.atDocumentMark]; omega
      rw [List.length_nil, Nat.add_right_comm, quoted?, mark, rest]
      have other : (after.head? == some '\'') = false := by simpa using ends
      simp [isSpaceOrTab, isBreak, other]
  | cons ch text ih =>
      intro c fuel seen quotable rest column
      obtain ⟨⟨blank, ends, quote⟩, others⟩ := List.forall_mem_cons.1 quotable
      have mark : c.atDocumentMark = false := by simp [Cursor.atDocumentMark]; omega
      have tail := ih (c := c.skip 1) fuel (seen ++ [ch]) others
        (by simp [Cursor.skip, rest]) (by simp [Cursor.skip])
      rw [List.length_cons, show text.length + 1 + 1 + fuel = text.length + 1 + fuel + 1 by omega,
        quoted?, mark, rest]
      simp [blank, ends, quote, tail]
      simp [Cursor.skip]
      omega

/-! ## Lines -/

theorem takeWhile_indentation {p : Char → Bool} {n : Nat} {body : List Char} (space : p ' ' = true)
    (stops : ∀ c more, body = c :: more → p c = false) :
    (List.replicate n ' ' ++ body).takeWhile p = List.replicate n ' ' := by
  induction n with
  | zero =>
      cases body with
      | nil => rfl
      | cons c more => simp [stops c more rfl]
  | succ n ih => rw [List.replicate_succ, List.cons_append, List.takeWhile_cons, space, if_pos rfl, ih]

namespace Scanner

theorem skipToToken_indentation {s : Scanner} {n : Nat} {body : List Char} (head : LineHead body)
    (rest : s.cursor.rest = List.replicate n ' ' ++ body) (fuel : Nat) :
    s.skipToToken (fuel + 1) = { s with cursor := s.cursor.skip n } := by
  have mark : s.cursor.rest.head?.any (fun c => c.toNat == 0xFEFF) = false := by
    rw [rest]
    cases n with
    | zero =>
        cases body with
        | nil => rfl
        | cons c more => simpa using (head c more rfl).2.2.2
    | succ n => rfl
  have blanks (p : Char → Bool) (space : p ' ' = true)
      (stops : ∀ c more, body = c :: more → p c = false) :
      s.cursor.dropWhile p = s.cursor.skip n := by
    rw [Cursor.dropWhile, Cursor.takeWhile, rest, takeWhile_indentation space stops,
      List.length_replicate]
  have skipped : (s.cursor.skip n).rest = body := by simp [Cursor.skip, rest]
  have comment : ((s.cursor.skip n).rest.head? == some '#') = false := by
    rw [skipped]
    cases body with
    | nil => rfl
    | cons c more => simpa using (head c more rfl).2.2.1
  have line : (atLineEnd (s.cursor.skip n).rest && !(s.cursor.skip n).rest.isEmpty) = false := by
    rw [skipped]
    cases body with
    | nil => rfl
    | cons c more => simpa [atLineEnd] using (head c more rfl).2.1
  rw [skipToToken, mark, Bool.and_false, if_neg Bool.false_ne_true, blanks _ rfl, comment, if_neg Bool.false_ne_true, line,
    if_neg Bool.false_ne_true]
  intro c more same
  have := (head c more same).1
  simp only [isSpaceOrTab, Bool.or_eq_false_iff] at this
  simp [this]

theorem skipToToken_newline {s : Scanner} {n : Nat} {body : List Char} (head : LineHead body)
    (rest : s.cursor.rest = '\n' :: (List.replicate n ' ' ++ body)) (block : s.inFlow = false)
    (fuel : Nat) :
    s.skipToToken (fuel + 2) =
      { s with cursor := s.cursor.nextLine n body, keyAllowed := true } := by
  have mark : s.cursor.rest.head?.any (fun c => c.toNat == 0xFEFF) = false := by
    rw [rest]
    rfl
  have blanks (p : Char → Bool) (newline : p '\n' = false) : s.cursor.dropWhile p = s.cursor := by
    rw [Cursor.dropWhile, Cursor.takeWhile, rest, List.takeWhile_cons_of_neg (by simp [newline])]
    rfl
  have comment : (s.cursor.rest.head? == some '#') = false := by
    rw [rest]
    rfl
  have line : (atLineEnd s.cursor.rest && !s.cursor.rest.isEmpty) = true := by
    rw [rest]
    rfl
  rw [skipToToken, mark, Bool.and_false, if_neg Bool.false_ne_true, blanks _ rfl, comment, if_neg Bool.false_ne_true, line, if_pos rfl,
    readBreak_newline rest, skipToToken_indentation head rfl, block]
  simp [Cursor.skip, Cursor.nextLine]

def resume? (fuel : Nat) (s : Scanner) : Option (List Token) :=
  let s := s.unroll s.cursor.column
  match s.cursor.rest with
  | [] => do
    let s ← (s.unroll (-1)).dropKey?
    return s.tokens.reverse
  | ch :: more => do (← s.next? ch more).finish? fuel

theorem finish?_succ (fuel : Nat) (s : Scanner) :
    s.finish? (fuel + 1) =
      (s.skipToToken (s.cursor.rest.length + 1)).dropStaleKeys?.bind (resume? fuel) := rfl

/-- A scanner in block context that stands at the first token of a line. -/
structure AtLine (s : Scanner) (indents : List Nat) (tokens : List Token) (column : Nat)
    (body : List Char) : Prop where
  rest : s.cursor.rest = body
  column : s.cursor.column = column
  indents : s.indents = indents
  tokens : s.tokens = tokens
  keyAllowed : s.keyAllowed = true
  keys : s.keys = [none]

def LineYields (indents : List Nat) (tokens : List Token) (column : Nat) (body : List Char)
    (out : List Token) : Prop :=
  ∀ s fuel, AtLine s indents tokens column body → body.length ≤ fuel → s.resume? fuel = some out

def Passing (line : Nat) : Option KeyStart → Prop
  | none => True
  | some k => k.required = false ∧ k.line < line

theorem dropStaleKeys?_of_passing {s : Scanner} {k : Option KeyStart} (keys : s.keys = [k])
    (passing : Passing s.cursor.line k) : s.dropStaleKeys? = some { s with keys := [none] } := by
  cases k with
  | none => simp [dropStaleKeys?, keys]
  | some k => simp [dropStaleKeys?, keys, passing.1, passing.2]

theorem finish?_of_line {s : Scanner} {indents : List Nat} {tokens out : List Token} {n fuel : Nat}
    {body : List Char} {k : Option KeyStart} (head : LineHead body)
    (yields : LineYields indents tokens n body out) (rest : s.cursor.rest = body)
    (column : s.cursor.column = n) (same : s.indents = indents) (seen : s.tokens = tokens)
    (allowed : s.keyAllowed = true) (keys : s.keys = [k]) (passing : Passing s.cursor.line k)
    (enough : body.length < fuel) : s.finish? fuel = some out := by
  obtain ⟨fuel, rfl⟩ := Nat.exists_eq_add_of_lt enough
  have skip : s.skipToToken (s.cursor.rest.length + 1) = s :=
    skipToToken_indentation (n := 0) head rest _
  rw [finish?_succ, skip, dropStaleKeys?_of_passing keys passing]
  exact yields _ _ ⟨rest, column, same, seen, allowed, rfl⟩ (by omega)

theorem finish?_of_newline {s : Scanner} {indents : List Nat} {tokens out : List Token}
    {n fuel : Nat} {body : List Char} {k : Option KeyStart} (head : LineHead body)
    (yields : LineYields indents tokens n body out)
    (rest : s.cursor.rest = '\n' :: (List.replicate n ' ' ++ body)) (same : s.indents = indents)
    (seen : s.tokens = tokens) (keys : s.keys = [k]) (passing : Passing (s.cursor.line + 1) k)
    (enough : s.cursor.rest.length < fuel) : s.finish? fuel = some out := by
  obtain ⟨fuel, rfl⟩ := Nat.exists_eq_add_of_lt enough
  have block : s.inFlow = false := by simp [inFlow, keys]
  have long : s.cursor.rest.length = n + body.length + 1 := by simp [rest]
  have skip : s.skipToToken (s.cursor.rest.length + 1) =
      { s with cursor := s.cursor.nextLine n body, keyAllowed := true } := by
    rw [long]
    exact skipToToken_newline head rest block _
  have dropped := dropStaleKeys?_of_passing
    (s := { s with cursor := s.cursor.nextLine n body, keyAllowed := true }) keys passing
  rw [finish?_succ, skip, dropped]
  exact yields _ _ ⟨rfl, rfl, same, seen, rfl, rfl⟩ (by omega)

theorem AtLine.inFlow {s : Scanner} {indents : List Nat} {tokens : List Token} {column : Nat}
    {body : List Char} (h : AtLine s indents tokens column body) : s.inFlow = false := by
  simp [Scanner.inFlow, h.keys]

def Inside (indents : List Nat) (column : Nat) : Prop := ∀ n ∈ indents.head?, n ≤ column

theorem unroll_of_inside {s : Scanner} {column : Nat} (inside : Inside s.indents column) :
    s.unroll column = s := by
  obtain ⟨cursor, tokens, indents, keyAllowed, keys⟩ := s
  cases indents with
  | nil => simp [unroll]
  | cons n indents =>
      have inside : n ≤ column := inside n rfl
      simp [unroll, inside]

theorem LineYields.close {indents : List Nat} {tokens out : List Token} {column n : Nat}
    {body : List Char} (h : LineYields indents (.blockEnd :: tokens) column body out)
    (outside : column < n) : LineYields (n :: indents) tokens column body out := by
  intro s fuel here enough
  have closed := h { s with indents := indents, tokens := .blockEnd :: tokens } fuel
    ⟨here.rest, here.column, rfl, rfl, here.keyAllowed, here.keys⟩ enough
  have same : s.unroll s.cursor.column =
      { s with indents := indents, tokens := Token.blockEnd :: tokens }.unroll s.cursor.column := by
    have flow := here.inFlow
    have flow' : { s with indents := indents, tokens := Token.blockEnd :: tokens }.inFlow = false :=
      flow
    have pops : s.cursor.column < n := by rwa [here.column]
    have shift (k : Nat) : List.replicate k Token.blockEnd ++ .blockEnd :: tokens =
        .blockEnd :: (List.replicate k .blockEnd ++ tokens) := by
      rw [List.append_cons, ← List.replicate_succ', List.replicate_succ, List.cons_append]
    simp [unroll, flow, flow', here.indents, here.tokens, pops, shift]
  rw [resume?, same]
  exact closed

theorem lineYields_end (tokens : List Token) :
    LineYields [0] tokens 0 [] (tokens.reverse ++ [.blockEnd]) := by
  intro s fuel here _
  have flow := here.inFlow
  have top : s.unroll s.cursor.column = s :=
    unroll_of_inside (by simp [Inside, here.indents])
  rw [resume?, top, here.rest]
  simp [unroll, flow, here.indents, here.tokens, dropKey?, here.keys]

theorem next?_bare {s : Scanner} {ch : Char} {cs after : List Char} (bare : Bare (ch :: cs))
    (mark : s.cursor.atDocumentMark = false) : s.next? ch (cs ++ after) = s.plainScalar? := by
  have safe := bare.safe ch List.mem_cons_self
  have other : ∀ d, isSafe d = false → ch ≠ d := by
    rintro d unsafe_ rfl
    rw [safe] at unsafe_
    cases unsafe_
  unfold next?
  rw [if_neg (by simp [other '%' (by decide)]), if_neg (by simp [mark])]
  split
  · exact absurd rfl (other '[' (by decide))
  · exact absurd rfl (other '\x7b' (by decide))
  · exact absurd rfl (other ']' (by decide))
  · exact absurd rfl (other '\x7d' (by decide))
  · exact absurd rfl (other ',' (by decide))
  · exact absurd rfl (other '*' (by decide))
  · exact absurd rfl (other '&' (by decide))
  · exact absurd rfl (other '!' (by decide))
  · exact absurd rfl (other '\'' (by decide))
  · exact absurd rfl (other '"' (by decide))
  · rw [if_neg (by simp [bare.atGap_eq_false after]), if_neg (by simp [other '?' (by decide)]),
      if_neg (by simp [other ':' (by decide)]), if_neg (by simp [other '|' (by decide)]),
      if_neg (by simp [other '>' (by decide)]), if_pos (bare.startsPlain_eq_true _ after)]

/-! ## Keys -/

structure Word (text : List Char) : Prop where
  nonempty : text ≠ []
  letters : ∀ c ∈ text, (c.isAlpha || c == '_') = true

structure Name (text : List Char) : Prop extends Word text where
  short : text.length ≤ 1024

theorem Word.safe {text : List Char} (word : Word text) : ∀ c ∈ text, isSafe c = true := by
  intro c member
  have letter := word.letters c member
  simp only [Bool.or_eq_true, beq_iff_eq] at letter
  obtain alpha | rfl := letter
  · simp [isSafe, Char.isAlphanum, alpha]
  · rfl

theorem Word.exists_cons {text : List Char} (word : Word text) :
    ∃ c cs, text = c :: cs ∧ c ≠ '-' ∧ c ≠ '.' := by
  cases text with
  | nil => exact absurd rfl word.nonempty
  | cons c cs =>
      refine ⟨c, cs, rfl, ?_⟩
      have letter := word.letters c List.mem_cons_self
      constructor
      · rintro rfl
        cases letter
      · rintro rfl
        cases letter

theorem Word.bare {text : List Char} (word : Word text) : Bare text := by
  obtain ⟨c, cs, rfl, dash, -⟩ := word.exists_cons
  exact ⟨⟨c, cs, rfl, fun sign => absurd sign dash⟩, word.safe⟩

theorem Word.mark {text : List Char} (word : Word text) {c : Cursor} {after : List Char}
    (here : c.rest = text ++ after) : c.atDocumentMark = false := by
  obtain ⟨ch, cs, rfl, dash, point⟩ := word.exists_cons
  unfold Cursor.atDocumentMark
  rw [here, Bool.and_eq_false_iff]
  right
  split
  next same => exact absurd (List.cons.inj same).1 dash
  next same => exact absurd (List.cons.inj same).1 point
  · rfl

def keyHere (s : Scanner) : KeyStart where
  position := s.tokens.length
  index := s.cursor.index
  line := s.cursor.line
  column := s.cursor.column
  required := !s.inFlow && s.indent == s.cursor.column

theorem saveKey?_of_allowed {s : Scanner} (allowed : s.keyAllowed = true)
    (keys : s.keys = [none]) : s.saveKey? = some { s with keys := [some s.keyHere] } := by
  simp [saveKey?, allowed, dropKey?, keys, keyHere]

def afterName (s : Scanner) (text : List Char) : Scanner :=
  { s with
    cursor := s.cursor.skip text.length
    tokens := .scalar .plain (String.ofList text) :: s.tokens
    keyAllowed := false
    keys := [some s.keyHere] }

theorem plainScalar?_key {s : Scanner} {text rest : List Char} (name : Name text)
    (here : s.cursor.rest = text ++ ':' :: rest) (gap : atGap rest = true)
    (allowed : s.keyAllowed = true) (keys : s.keys = [none]) :
    s.plainScalar? = some (s.afterName text) := by
  have plain := plain?_key (s.indent + 1).toNat s.cursor.rest.length
    name.bare here gap (name.mark here)
  rw [plainScalar?, saveKey?_of_allowed allowed keys]
  change (plain? false (s.indent + 1).toNat (s.cursor.rest.length + 1) s.cursor [] .empty).bind _ =
    _
  rw [plain]
  rfl

theorem next?_colon {s : Scanner} {more : List Char} (here : s.cursor.rest = ':' :: more)
    (gap : atGap more = true) : s.next? ':' more = s.colon? := by
  have mark : s.cursor.atDocumentMark = false := by simp [Cursor.atDocumentMark, here]
  unfold next?
  rw [if_neg (by simp), if_neg (by simp [mark])]
  simp [gap]

theorem finish?_afterName {s : Scanner} {text rest : List Char} (name : Name text)
    (here : s.cursor.rest = text ++ ':' :: rest) (gap : atGap rest = true)
    (inside : Inside s.indents s.cursor.column) (fuel : Nat) :
    (s.afterName text).finish? (fuel + 1) = (s.afterName text).colon?.bind (finish? fuel) := by
  have colon : (s.afterName text).cursor.rest = ':' :: rest := by
    simp [afterName, Cursor.skip, here]
  have skip : (s.afterName text).skipToToken ((s.afterName text).cursor.rest.length + 1) =
      s.afterName text :=
    skipToToken_indentation (n := 0) (by simp [LineHead, isSpaceOrTab, isBreak]) colon _
  have kept : (s.afterName text).dropStaleKeys? = some (s.afterName text) := by
    have short := Nat.not_lt.2 name.short
    simp [dropStaleKeys?, afterName, keyHere, Cursor.skip, short]
  have unrolled : (s.afterName text).unroll (s.afterName text).cursor.column = s.afterName text :=
    unroll_of_inside fun n top => Nat.le_trans (inside n top) (Nat.le_add_right ..)
  rw [finish?_succ, skip, kept, Option.bind_some, resume?, unrolled, colon]
  dsimp only
  rw [next?_colon colon gap]
  rfl

/-- A scanner in the line of the key of a mapping at column `n`, after the key. -/
structure InLine (s : Scanner) (n : Nat) (indents : List Nat) (tokens : List Token)
    (allowed : Bool) (rest : List Char) : Prop where
  rest : s.cursor.rest = rest
  column : n < s.cursor.column
  indents : s.indents = n :: indents
  tokens : s.tokens = tokens
  keyAllowed : s.keyAllowed = allowed
  keys : s.keys = [none]

def RestYields (n : Nat) (indents : List Nat) (tokens : List Token) (allowed : Bool)
    (rest : List Char) (out : List Token) : Prop :=
  ∀ s fuel, InLine s n indents tokens allowed rest → rest.length < fuel → s.finish? fuel = some out

theorem insert_length {s : Scanner} {new old : List Token} {t : Token} (h : s.tokens = new ++ old) :
    s.insert old.length t = { s with tokens := new ++ t :: old } := by
  simp [insert, h]

theorem roll_of_lt {s : Scanner} {column position : Nat} {t : Token} (flow : s.inFlow = false)
    (outside : ¬ (column : Int) ≤ s.indent) :
    s.roll column position t =
      { s.insert position t with indents := column :: s.indents } := by
  simp [roll, flow, outside]

theorem colon?_opening {s : Scanner} {k : KeyStart} {new old : List Token}
    (keys : s.keys = [some k]) (tokens : s.tokens = new ++ old) (position : k.position = old.length)
    (outside : ¬ (k.column : Int) ≤ s.indent) :
    s.colon? = some { s with
      cursor := s.cursor.skip 1
      tokens := .value :: (new ++ .key :: .blockMapStart :: old)
      indents := k.column :: s.indents
      keyAllowed := false
      keys := [none] } := by
  have flow : s.inFlow = false := by simp [inFlow, keys]
  have first : s.insert old.length .key = { s with tokens := new ++ Token.key :: old } :=
    insert_length tokens
  have second : { s with tokens := new ++ Token.key :: old }.roll k.column old.length .blockMapStart =
      { s with
        tokens := new ++ Token.key :: .blockMapStart :: old
        indents := k.column :: s.indents } := by
    refine (roll_of_lt (s := { s with tokens := new ++ Token.key :: old }) flow outside).trans ?_
    rw [insert_length (List.append_cons ..), ← List.append_cons]
  unfold colon?
  rw [keys]
  dsimp only
  rw [position, first, second]
  rfl

theorem resume?_key {s : Scanner} {indents : List Nat} {tokens : List Token} {n : Nat}
    {text rest : List Char} (name : Name text) (gap : atGap rest = true)
    (here : AtLine s indents tokens n (text ++ ':' :: rest)) (inside : Inside indents n)
    (fuel : Nat) :
    s.resume? (fuel + 1) = (s.afterName text).colon?.bind (finish? fuel) := by
  have inside : Inside s.indents s.cursor.column := by rwa [here.indents, here.column]
  obtain ⟨c, cs, rfl, -⟩ := name.exists_cons
  rw [resume?, unroll_of_inside inside, here.rest]
  dsimp only [List.cons_append]
  rw [next?_bare name.bare (name.mark here.rest),
    plainScalar?_key name here.rest gap here.keyAllowed here.keys]
  change (s.afterName (c :: cs)).finish? (fuel + 1) = _
  rw [finish?_afterName name here.rest gap inside]

theorem cursor_after_colon {c : Cursor} {text rest : List Char}
    (here : c.rest = text ++ ':' :: rest) : ((c.skip text.length).skip 1).rest = rest := by
  simp [Cursor.skip, here]

theorem lineYields_key {n : Nat} {indents : List Nat} {tokens out : List Token}
    {text rest : List Char} (name : Name text) (gap : atGap rest = true)
    (h : RestYields n indents
      (.value :: .scalar .plain (String.ofList text) :: .key :: tokens) false rest out) :
    LineYields (n :: indents) tokens n (text ++ ':' :: rest) out := by
  intro s fuel here enough
  rw [List.length_append, List.length_cons] at enough
  have some_ := List.length_pos_iff.2 name.nonempty
  obtain ⟨fuel, rfl⟩ := Nat.exists_eq_add_of_lt (show 0 < fuel by omega)
  rw [Nat.zero_add, resume?_key name gap here (by simp [Inside])]
  have flow := here.inFlow
  have colon : (s.afterName text).colon? = some { s with
      cursor := (s.cursor.skip text.length).skip 1
      tokens := .value :: .scalar .plain (String.ofList text) :: .key :: s.tokens
      keyAllowed := false
      keys := [none] } := by
    simp [colon?, afterName, keyHere, insert, roll, indent, here.indents, here.column, take, push]
  rw [colon]
  refine h _ fuel ⟨cursor_after_colon here.rest, ?_, here.indents, by rw [here.tokens], rfl, rfl⟩
    (by omega)
  simp only [Cursor.skip, here.column]
  omega

theorem lineYields_first_key {n : Nat} {indents : List Nat} {tokens out : List Token}
    {text rest : List Char} (name : Name text) (gap : atGap rest = true)
    (further : ∀ m ∈ indents.head?, m < n)
    (h : RestYields n indents
      (.value :: .scalar .plain (String.ofList text) :: .key :: .blockMapStart :: tokens) false rest
      out) :
    LineYields indents tokens n (text ++ ':' :: rest) out := by
  intro s fuel here enough
  rw [List.length_append, List.length_cons] at enough
  have some_ := List.length_pos_iff.2 name.nonempty
  obtain ⟨fuel, rfl⟩ := Nat.exists_eq_add_of_lt (show 0 < fuel by omega)
  rw [Nat.zero_add, resume?_key name gap here fun m top => Nat.le_of_lt (further m top)]
  have flow := here.inFlow
  have outside : ¬ (n : Int) ≤ s.indent := by
    rw [indent, here.indents]
    cases indents with
    | nil =>
        change ¬ (n : Int) ≤ -1
        omega
    | cons m indents =>
        have := further m rfl
        change ¬ (n : Int) ≤ m
        omega
  -- The key is further in than all that is open, so that its colon opens a mapping.
  have colon : (s.afterName text).colon? = some { s with
      cursor := (s.cursor.skip text.length).skip 1
      tokens := .value :: .scalar .plain (String.ofList text) :: .key :: .blockMapStart :: s.tokens
      indents := n :: s.indents
      keyAllowed := false
      keys := [none] } := by
    rw [← here.column] at outside ⊢
    exact colon?_opening rfl (show (s.afterName text).tokens =
      [.scalar .plain (String.ofList text)] ++ s.tokens from rfl) rfl outside
  rw [colon]
  refine h _ fuel ⟨cursor_after_colon here.rest, ?_, by rw [here.indents], by rw [here.tokens], rfl,
    rfl⟩ (by omega)
  simp only [Cursor.skip, here.column]
  omega

/-! ## Scalars at the end of a line -/

theorem saveKey?_further {s : Scanner} {n : Nat} {indents : List Nat} (keys : s.keys = [none])
    (same : s.indents = n :: indents) (further : n < s.cursor.column) :
    ∃ k, s.saveKey? = some { s with keys := [k] } ∧ Passing (s.cursor.line + 1) k := by
  by_cases allowed : s.keyAllowed = true
  · refine ⟨some s.keyHere, saveKey?_of_allowed allowed keys, ?_, Nat.lt_succ_self _⟩
    simp only [keyHere, indent, same, Bool.and_eq_false_iff, beq_eq_false_iff_ne]
    omega
  · refine ⟨none, ?_, trivial⟩
    rw [← keys]
    exact if_pos (by simpa using allowed)

theorem restYields_of_token {n : Nat} {indents : List Nat} {tokens out : List Token} {allowed : Bool}
    {rest : List Char} (head : LineHead rest)
    (h : ∀ s fuel, InLine s n indents tokens allowed rest → rest.length ≤ fuel →
      s.resume? fuel = some out) :
    RestYields n indents tokens allowed (' ' :: rest) out := by
  intro s fuel here enough
  obtain ⟨fuel, rfl⟩ := Nat.exists_eq_add_of_lt (show 0 < fuel by omega)
  have skip : s.skipToToken (s.cursor.rest.length + 1) = { s with cursor := s.cursor.skip 1 } :=
    skipToToken_indentation (n := 1) head here.rest _
  have kept := dropStaleKeys?_of_passing (s := { s with cursor := s.cursor.skip 1 }) here.keys
    trivial
  rw [Nat.zero_add, finish?_succ, skip, kept]
  refine h _ _ ⟨?_, Nat.lt_succ_of_lt here.column, here.indents, here.tokens, here.keyAllowed, rfl⟩ ?_
  · simp [Cursor.skip, here.rest]
  · rw [List.length_cons] at enough
    omega

theorem InLine.inside {s : Scanner} {n : Nat} {indents : List Nat} {tokens : List Token}
    {allowed : Bool} {rest : List Char} (here : InLine s n indents tokens allowed rest) :
    Inside s.indents s.cursor.column := by
  have := here.column
  simp [Inside, here.indents]
  omega

theorem InLine.mark {s : Scanner} {n : Nat} {indents : List Nat} {tokens : List Token}
    {allowed : Bool} {rest : List Char} (here : InLine s n indents tokens allowed rest) :
    s.cursor.atDocumentMark = false := by
  have := here.column
  simp [Cursor.atDocumentMark]
  omega

theorem restYields_bare {n m : Nat} {indents : List Nat} {tokens out : List Token} {allowed : Bool}
    {text body : List Char} (bare : Bare text) (head : LineHead body) (outside : m ≤ n)
    (h : LineYields (n :: indents) (.scalar .plain (String.ofList text) :: tokens) m body out) :
    RestYields n indents tokens allowed
      (' ' :: (text ++ '\n' :: (List.replicate m ' ' ++ body))) out := by
  refine restYields_of_token bare.lineHead fun s fuel here enough => ?_
  obtain ⟨k, saved, passing⟩ := saveKey?_further here.keys here.indents here.column
  have plain := plain?_line s.cursor.rest.length bare here.rest head.solid
    (Nat.lt_succ_of_le outside) here.mark
  have next : s.resume? fuel = s.plainScalar?.bind (finish? fuel) := by
    obtain ⟨ch, cs, rfl, -⟩ := bare.nonempty
    rw [resume?, unroll_of_inside here.inside, here.rest]
    dsimp only [List.cons_append]
    rw [next?_bare bare here.mark]
    rfl
  have indent_ : (indent { s with keys := [k] } + 1).toNat = n + 1 := by
    simp only [indent, here.indents]
    omega
  rw [next, plainScalar?, saved]
  change ((plain? false (indent { s with keys := [k] } + 1).toNat (s.cursor.rest.length + 1) s.cursor
    [] .empty).bind _).bind _ = _
  rw [indent_, plain]
  refine finish?_of_line head h rfl rfl here.indents ?_ rfl rfl passing ?_
  · rw [← here.tokens]
    rfl
  · simp at enough
    omega

theorem next?_quote {s : Scanner} {more : List Char} (mark : s.cursor.atDocumentMark = false) :
    s.next? '\'' more = s.quotedScalar? .singleQuoted := by
  unfold next?
  rw [if_neg (by simp), if_neg (by simp [mark])]
  rfl

theorem restYields_quoted {n m : Nat} {indents : List Nat} {tokens out : List Token}
    {allowed : Bool} {text body : List Char} (quotable : ∀ c ∈ text, IsQuotable c)
    (head : LineHead body)
    (h : LineYields (n :: indents) (.scalar .singleQuoted (String.ofList text) :: tokens) m body
      out) :
    RestYields n indents tokens allowed
      (' ' :: '\'' :: (text ++ '\'' :: '\n' :: (List.replicate m ' ' ++ body))) out := by
  refine restYields_of_token (by simp [LineHead, isSpaceOrTab, isBreak]) fun s fuel here enough => ?_
  obtain ⟨k, saved, passing⟩ := saveKey?_further here.keys here.indents here.column
  have rest : (s.cursor.skip 1).rest =
      text ++ '\'' :: '\n' :: (List.replicate m ' ' ++ body) := by
    simp [Cursor.skip, here.rest]
  have quoted := quoted?_line (by simp) (m + body.length + 2) [] quotable rest (Nat.succ_pos _)
  have long : (s.cursor.skip 1).rest.length + 1 = text.length + 1 + (m + body.length + 2) := by
    simp [rest]
    omega
  rw [resume?, unroll_of_inside here.inside, here.rest]
  dsimp only
  rw [next?_quote here.mark, quotedScalar?, saved]
  change ((quoted? true ((s.cursor.skip 1).rest.length + 1) (s.cursor.skip 1) []).bind _).bind _ = _
  rw [long, quoted]
  refine finish?_of_newline head h ?_ here.indents ?_ rfl passing ?_
  · simp [Cursor.skip, here.rest]
  · rw [← here.tokens]
    rfl
  · simp [Cursor.skip, here.rest] at enough ⊢
    omega

theorem restYields_newline {n m : Nat} {indents : List Nat} {tokens out : List Token}
    {allowed : Bool} {body : List Char} (head : LineHead body)
    (h : LineYields (n :: indents) tokens m body out) :
    RestYields n indents tokens allowed ('\n' :: (List.replicate m ' ' ++ body)) out :=
  fun _ _ here enough => finish?_of_newline head h here.rest here.indents here.tokens here.keys
    trivial (by rwa [here.rest])

theorem lineYields_dash {n : Nat} {indents : List Nat} {tokens out : List Token}
    {rest : List Char} (h : RestYields n indents (.blockEntry :: tokens) true (' ' :: rest) out) :
    LineYields (n :: indents) tokens n ('-' :: ' ' :: rest) out := by
  intro s fuel here enough
  have inside : Inside s.indents s.cursor.column := by simp [Inside, here.indents, here.column]
  have mark : s.cursor.atDocumentMark = false := by
    simp [Cursor.atDocumentMark, here.rest]
  have next : s.next? '-' (' ' :: rest) = s.dash? := by
    unfold next?
    rw [if_neg (by simp), if_neg (by simp [mark])]
    rfl
  have rolled : s.roll s.cursor.column s.tokens.length .blockListStart = s := by
    simp [roll, indent, here.indents, here.column]
  have dash : s.dash? = some { s.take 1 .blockEntry with keyAllowed := true } := by
    simp [dash?, openBlock?, here.inFlow, here.keyAllowed, rolled, dropKey?, here.keys]
  rw [resume?, unroll_of_inside inside, here.rest]
  dsimp only
  rw [next, dash]
  refine h _ fuel ⟨?_, ?_, here.indents, ?_, rfl, here.keys⟩ ?_
  · simp [take, push, Cursor.skip, here.rest]
  · simp [take, push, Cursor.skip, here.column]
  · simp [take, push, here.tokens]
  · simp at enough ⊢
    omega

end Scanner
end AnimatedCanvas.Yaml
