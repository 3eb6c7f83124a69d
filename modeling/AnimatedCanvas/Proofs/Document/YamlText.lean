import AnimatedCanvas.Proofs.Document.Represents
import AnimatedCanvas.Proofs.Document.YamlScalar

namespace AnimatedCanvas.Yaml

open Value (isWord Scalar Printed KeyText PlainText)
open Scanner

/-! ## Tokens -/

def scalarToken : Value → Token
  | .text s => .scalar (if isWord s then .plain else .singleQuoted) s
  | w => .scalar .plain (w.yamlInline?.getD "")

mutual

def tokensOf : Value → List Token
  | .list items => itemTokens items
  | .map entries => .blockMapStart :: (entryTokens entries ++ [.blockEnd])
  | .null => [scalarToken .null]
  | .flag b => [scalarToken (.flag b)]
  | .number n => [scalarToken (.number n)]
  | .text s => [scalarToken (.text s)]
  | .tagged tag content => .tag "!" tag :: tokensOf content

def itemTokens : List Value → List Token
  | [] => []
  | w :: items => .blockEntry :: (tokensOf w ++ itemTokens items)

def entryTokens : List (Value × Value) → List Token
  | [] => []
  | (k, w) :: entries => .key :: (tokensOf k ++ .value :: (tokensOf w ++ entryTokens entries))

end

theorem tokens_scalar {allowed : Number → Prop} {w : Value} (h : Scalar allowed w) :
    tokensOf w = [scalarToken w] := by
  cases h with
  | natural _ => rfl
  | real _ => rfl
  | flag b => rfl
  | text _ => rfl

/-! ## Lines -/

def block (c : Nat) (lines : List String) : List Char :=
  lines.flatMap fun line => List.replicate c ' ' ++ (line.toList ++ ['\n'])

@[simp]
theorem block_nil (c : Nat) : block c [] = [] := rfl

@[simp]
theorem block_cons (c : Nat) (line : String) (lines : List String) :
    block c (line :: lines) =
      List.replicate c ' ' ++ (line.toList ++ '\n' :: block c lines) := by
  simp [block]

@[simp]
theorem block_append (c : Nat) (lines more : List String) :
    block c (lines ++ more) = block c lines ++ block c more := by
  simp [block]

@[simp]
theorem block_indented (c : Nat) (lines : List String) :
    block c (lines.map ("  " ++ ·)) = block (c + 2) lines := by
  induction lines with
  | nil => rfl
  | cons line lines ih => simp [ih, List.replicate_succ']

def Printable (text : List Char) : Prop := ∀ ch ∈ text, isPrintable ch = true

@[simp]
theorem printable_nil : Printable [] := by simp [Printable]

@[simp]
theorem printable_cons {ch : Char} {text : List Char} :
    Printable (ch :: text) ↔ isPrintable ch = true ∧ Printable text := List.forall_mem_cons

@[simp]
theorem printable_append {text more : List Char} :
    Printable (text ++ more) ↔ Printable text ∧ Printable more := List.forall_mem_append

@[simp]
theorem printable_indentation (c : Nat) : Printable (List.replicate c ' ') := by
  intro ch member
  rw [List.eq_of_mem_replicate member]
  rfl

theorem Bare.printable {text : List Char} (bare : Bare text) : Printable text := fun ch member =>
  of_isSafe (p := fun ch => isPrintable ch = true) (by decide) (bare.safe ch member)

theorem toList_yaml (w : Value) : w.yaml.toList = block 0 w.yamlLines := by
  simp [Value.yaml, block, String.toList_join, List.flatMap_map]

def Continues (c : Nat) (indents : List Nat) (tokens : List Token) (next : List Char)
    (out : List Token) : Prop :=
  ∃ n body, next = List.replicate n ' ' ++ body ∧ n ≤ c ∧ LineHead body ∧
    LineYields (c :: indents) tokens n body out

/-! ## Scalars -/

structure IsToken (line : String) (t : Token) : Prop where
  yields : ∀ {c indents tokens allowed next out}, Continues c indents (t :: tokens) next out →
    RestYields c indents tokens allowed (' ' :: (line.toList ++ '\n' :: next)) out
  printable : Printable line.toList

theorem isToken_bare {line : String} (bare : Bare line.toList) :
    IsToken line (.scalar .plain line) where
  yields := by
    rintro c indents tokens allowed next out ⟨n, body, rfl, outside, head, h⟩
    refine restYields_bare bare head outside ?_
    rwa [String.ofList_toList]
  printable := bare.printable

theorem isQuotable_of_isPlainChar {c : Char} (h : Value.isPlainChar c = true) :
    IsQuotable c ∧ isPrintable c = true := by
  simp only [Value.isPlainChar, Bool.or_eq_true, beq_iff_eq] at h
  obtain (alphanumeric | rfl) | rfl := h
  · have safe : isSafe c = true := by simp [isSafe, alphanumeric]
    exact of_isSafe (p := fun c => IsQuotable c ∧ isPrintable c = true) (by decide) safe
  · decide
  · decide

theorem isToken_quoted {s : String} (plain : PlainText s) (quoted : ¬ isWord s = true) :
    IsToken (Value.yamlText s) (.scalar .singleQuoted s) := by
  have each := fun c member => isQuotable_of_isPlainChar (plain.plain c member)
  have text : (Value.yamlText s).toList = '\'' :: (s.toList ++ ['\'']) := by
    have same : s.toList.map (fun c => if c = '\'' then "''" else String.singleton c) =
        s.toList.map String.singleton :=
      List.map_congr_left fun c member => if_neg (each c member).1.2.2
    rw [Value.yamlText, if_neg quoted]
    simp [same, String.toList_join, List.flatMap_map]
  constructor
  · rintro c indents tokens allowed next out ⟨n, body, rfl, -, head, h⟩
    rw [text]
    simp only [List.cons_append, List.append_assoc, List.nil_append]
    refine restYields_quoted (fun c member => (each c member).1) head ?_
    rwa [String.ofList_toList]
  · have inner : Printable s.toList := fun c member => (each c member).2
    simp [text, inner, isPrintable]

theorem isToken_text {s : String} (plain : PlainText s) :
    IsToken (Value.yamlText s) (scalarToken (.text s)) := by
  rw [scalarToken]
  by_cases word : isWord s = true
  · rw [Value.yamlText, if_pos word, if_pos word]
    exact isToken_bare (word_of_isWord word).bare
  · rw [if_neg word]
    exact isToken_quoted plain word

theorem bare_flag (b : Bool) : Bare (if b then "true" else "false").toList := by
  cases b with
  | false => exact (Word.mk (by decide) (List.all_eq_true.mp (by decide))).bare
  | true => exact (Word.mk (by decide) (List.all_eq_true.mp (by decide))).bare

theorem isToken_scalar {w : Value} (h : Scalar ReadsBack w) :
    ∃ line, w.yamlInline? = some line ∧ w.yamlLines = [line] ∧ IsToken line (scalarToken w) := by
  cases h with
  | @natural n number => exact ⟨toString n, rfl, rfl, isToken_bare (bare_natural n)⟩
  | real number =>
      exact ⟨_, rfl, rfl, isToken_bare (bare_of_realText? (realText?_of_readsBack number))⟩
  | flag b => exact ⟨_, rfl, rfl, isToken_bare (bare_flag b)⟩
  | text plain => exact ⟨_, rfl, rfl, isToken_text plain⟩

/-! ## Lists -/

structure IsItem (w : Value) (line : String) : Prop where
  lines : w.yamlLines = [line]
  tokens : tokensOf w = [scalarToken w]
  token : IsToken line (scalarToken w)

theorem yamlItems_eq_map {items : List Value} {lines : List String}
    (each : List.Forall₂ IsItem items lines) : Value.yamlItems items = lines.map ("- " ++ ·) := by
  induction each with
  | nil => rfl
  | cons head _ ih => simp [Value.yamlItems, head.lines, ih, Value.itemLines]

theorem printable_items {c : Nat} {items : List Value} {lines : List String}
    (each : List.Forall₂ IsItem items lines) : Printable (block c (lines.map ("- " ++ ·))) := by
  induction each with
  | nil => exact printable_nil
  | cons head _ ih => simp [head.token.printable, ih, isPrintable]

theorem continues_items {c : Nat} {indents : List Nat} {seen : List Token} {next : List Char}
    {out : List Token} {items : List Value} {lines : List String}
    (each : List.Forall₂ IsItem items lines)
    (h : Continues c indents ((itemTokens items).reverse ++ seen) next out) :
    Continues c indents seen (block c (lines.map ("- " ++ ·)) ++ next) out := by
  induction each generalizing seen with
  | nil => exact h
  | @cons w line items lines head _ ih =>
      have h : Continues c indents
          ((itemTokens items).reverse ++ scalarToken w :: .blockEntry :: seen) next out := by
        simpa [itemTokens, head.tokens] using h
      refine ⟨c, _, ?_, Nat.le_refl c, ?_, lineYields_dash (head.token.yields (ih h))⟩
      · simp
      · simp [LineHead, isSpaceOrTab, isBreak]

/-! ## Mappings -/

/-- What is printed between a key and the next line of its mapping, for each column of the key. -/
structure ValueText (w : Value) (text : Nat → List Char) : Prop where
  lines : ∀ {name : String}, isWord name = true → ∀ c entries,
    block c (Value.yamlEntries ((.text name, w) :: entries)) =
      List.replicate c ' ' ++
        (name.toList ++ ':' :: (text c ++ block c (Value.yamlEntries entries)))
  gap : ∀ c next, atGap (text c ++ next) = true
  printable : ∀ c, Printable (text c)
  yields : ∀ {c indents seen next out}, Continues c indents ((tokensOf w).reverse ++ seen) next out →
    RestYields c indents seen false (text c ++ next) out

theorem yamlInline?_name {name : String} (word : isWord name = true) :
    (Value.yamlInline? (.text name)).getD (Value.json (.text name)) = name := by
  simp [Value.yamlInline?, Value.yamlText, word]

theorem valueText_scalar {w : Value} (h : Scalar ReadsBack w) : ∃ text, ValueText w text := by
  obtain ⟨line, inline, -, token⟩ := isToken_scalar h
  refine ⟨fun _ => ' ' :: (line.toList ++ ['\n']), ?_, fun _ _ => rfl, fun _ => ?_, ?_⟩
  · intro name word c entries
    simp [Value.yamlEntries, yamlInline?_name word, inline]
  · simp [token.printable, isPrintable]
  · intro c indents seen next out follows
    rw [tokens_scalar h] at follows
    simpa using token.yields follows

theorem valueText_list {items : List Value} (nonempty : items ≠ [])
    (each : ∀ w ∈ items, Scalar ReadsBack w) : ∃ text, ValueText (.list items) text := by
  have lines : ∀ w ∈ items, ∃ line, IsItem w line := by
    intro w member
    obtain ⟨line, -, same, token⟩ := isToken_scalar (each w member)
    exact ⟨line, same, tokens_scalar (each w member), token⟩
  obtain ⟨lines, all⟩ := exists_forall₂ lines
  have printed : Value.yamlLines (.list items) = lines.map ("- " ++ ·) := by
    obtain ⟨w, items, rfl⟩ := List.exists_cons_of_ne_nil nonempty
    exact yamlItems_eq_map all
  have inline : Value.yamlInline? (.list items) = none := by
    obtain ⟨w, items, rfl⟩ := List.exists_cons_of_ne_nil nonempty
    rfl
  refine ⟨fun c => '\n' :: block c (lines.map ("- " ++ ·)), ?_, fun _ _ => rfl, fun c => ?_, ?_⟩
  · intro name word c entries
    simp [Value.yamlEntries, yamlInline?_name word, inline, printed]
  · simpa [isPrintable] using printable_items all
  · intro c indents seen next out follows
    rw [tokensOf] at follows
    obtain ⟨n, body, same, outside, head, h⟩ := continues_items all follows
    rw [List.cons_append, same]
    exact restYields_newline head h

theorem name_of_keyText {s : String} (h : KeyText s) : Name s.toList :=
  ⟨word_of_isWord h.word, h.short⟩

def entries (fields : List (String × Value)) : List (Value × Value) :=
  fields.map fun f => (.text f.1, f.2)

theorem tokens_record (fields : List (String × Value)) :
    tokensOf (.record fields) = .blockMapStart :: (entryTokens (entries fields) ++ [.blockEnd]) := by
  rw [← tokensOf]
  rfl

theorem tokens_name {name : String} (word : isWord name = true) :
    tokensOf (.text name) = [.scalar .plain name] := by
  simp [tokensOf, scalarToken, word]

structure IsField (f : String × Value) : Prop where
  name : KeyText f.1
  value : ∃ text, ValueText f.2 text

theorem printable_entries {c : Nat} {fields : List (String × Value)}
    (each : ∀ f ∈ fields, IsField f) :
    Printable (block c (Value.yamlEntries (entries fields))) := by
  induction fields with
  | nil => exact printable_nil
  | cons f fields ih =>
      obtain ⟨⟨name, text, value⟩, others⟩ := List.forall_mem_cons.1 each
      rw [entries, List.map_cons, value.lines name.word]
      simp [(word_of_isWord name.word).bare.printable, value.printable, isPrintable]
      exact ih others

theorem continues_entries {c : Nat} {indents : List Nat} {seen : List Token} {next : List Char}
    {out : List Token} {fields : List (String × Value)} (each : ∀ f ∈ fields, IsField f)
    (h : Continues c indents ((entryTokens (entries fields)).reverse ++ seen) next out) :
    Continues c indents seen (block c (Value.yamlEntries (entries fields)) ++ next) out := by
  induction fields generalizing seen with
  | nil => exact h
  | cons f fields ih =>
      obtain ⟨⟨name, text, value⟩, others⟩ := List.forall_mem_cons.1 each
      have h : Continues c indents ((entryTokens (entries fields)).reverse ++
          ((tokensOf f.2).reverse ++ .value :: .scalar .plain f.1 :: .key :: seen)) next out := by
        simpa [entries, entryTokens, tokens_name name.word] using h
      have rest := value.yields (ih others h)
      rw [← String.ofList_toList (s := f.1)] at rest
      refine ⟨c, _, ?_, Nat.le_refl c, (word_of_isWord name.word).bare.lineHead,
        lineYields_key (name_of_keyText name) (value.gap c _) rest⟩
      rw [entries, List.map_cons, value.lines name.word]
      simp [entries]

theorem lineYields_record {c : Nat} {indents : List Nat} {seen : List Token} {next : List Char}
    {out : List Token} {f : String × Value} {fields : List (String × Value)}
    (each : ∀ e ∈ f :: fields, IsField e) (further : ∀ m ∈ indents.head?, m < c)
    (h : Continues c indents
      ((entryTokens (entries (f :: fields))).reverse ++ .blockMapStart :: seen) next out) :
    ∃ body, block c (Value.yamlEntries (entries (f :: fields))) ++ next =
      List.replicate c ' ' ++ body ∧ LineHead body ∧ LineYields indents seen c body out := by
  obtain ⟨⟨name, text, value⟩, others⟩ := List.forall_mem_cons.1 each
  have h : Continues c indents ((entryTokens (entries fields)).reverse ++
      ((tokensOf f.2).reverse ++ .value :: .scalar .plain f.1 :: .key :: .blockMapStart :: seen))
      next out := by
    simpa [entries, entryTokens, tokens_name name.word] using h
  have rest := value.yields (continues_entries others h)
  rw [← String.ofList_toList (s := f.1)] at rest
  refine ⟨_, ?_, (word_of_isWord name.word).bare.lineHead,
    lineYields_first_key (name_of_keyText name) (value.gap c _) further rest⟩
  rw [entries, List.map_cons, value.lines name.word]
  simp [entries]

theorem Continues.further {c : Nat} {indents : List Nat} {seen : List Token} {next : List Char}
    {out : List Token} (h : Continues c indents (.blockEnd :: seen) next out) :
    Continues (c + 2) (c :: indents) seen next out := by
  obtain ⟨n, body, same, outside, head, h⟩ := h
  exact ⟨n, body, same, by omega, head, h.close (by omega)⟩

theorem valueText_record {fields : List (String × Value)} (nonempty : fields ≠ [])
    (each : ∀ f ∈ fields, IsField f) : ∃ text, ValueText (.record fields) text := by
  obtain ⟨f, fields, rfl⟩ := List.exists_cons_of_ne_nil nonempty
  refine ⟨fun c => '\n' :: block (c + 2) (Value.yamlEntries (entries (f :: fields))), ?_,
    fun _ _ => rfl, fun c => ?_, ?_⟩
  · intro name word c more
    simp [Value.yamlEntries, Value.yamlText, word, Value.record, Value.yamlInline?,
      Value.yamlLines, entries]
  · simpa [isPrintable] using printable_entries each
  · intro c indents seen next out follows
    have inner : Continues (c + 2) (c :: indents)
        ((entryTokens (entries (f :: fields))).reverse ++ .blockMapStart :: seen) next out := by
      rw [tokens_record] at follows
      exact Continues.further (by simpa using follows)
    obtain ⟨body, same, head, h⟩ := lineYields_record each (by simp) inner
    rw [List.cons_append, same]
    exact restYields_newline head h

theorem exists_valueText {w : Value} (h : Printed ReadsBack w) : ∃ text, ValueText w text := by
  induction h with
  | scalar scalar => exact valueText_scalar scalar
  | list nonempty each => exact valueText_list nonempty each
  | record nonempty names parts ih =>
      exact valueText_record nonempty fun f member => ⟨names f member, ih f member⟩

theorem finish?_start {body : List Char} {out : List Token} (head : LineHead body)
    (h : LineYields [] [] 0 body out) : (Scanner.start body).finish? (body.length + 1) = some out :=
  finish?_of_line head h rfl rfl rfl rfl rfl rfl trivial (Nat.lt_succ_self _)

theorem scan?_of_lineYields {text : String} {out : List Token} (head : LineHead text.toList)
    (printable : Printable text.toList) (h : LineYields [] [] 0 text.toList out) :
    Token.scan? text = some out := by
  have all : text.toList.all isPrintable = true := List.all_eq_true.2 printable
  unfold Token.scan?
  generalize text.toList = cs at *
  cases cs with
  | nil => exact finish?_start head h
  | cons c rest =>
      have mark : (c.toNat == 0xFEFF) = false := by simpa using (head c rest rfl).2.2.2
      simp only [mark, Bool.false_eq_true, if_false, all, if_true]
      exact finish?_start head h

theorem scan?_yaml {fields : List (String × Value)} (h : Printed ReadsBack (.record fields)) :
    Token.scan? (Value.record fields).yaml = some (tokensOf (.record fields)) := by
  obtain ⟨nonempty, names, parts⟩ := Value.printed_record.1 h
  have each : ∀ f ∈ fields, IsField f := fun f member =>
    ⟨names f member, exists_valueText (parts f member)⟩
  obtain ⟨f, fields, rfl⟩ := List.exists_cons_of_ne_nil nonempty
  have ends : Continues 0 [] ((entryTokens (entries (f :: fields))).reverse ++ [.blockMapStart]) []
      (tokensOf (.record (f :: fields))) := by
    refine ⟨0, [], rfl, Nat.le_refl 0, by simp [LineHead], ?_⟩
    have := lineYields_end ((entryTokens (entries (f :: fields))).reverse ++ [.blockMapStart])
    rw [tokens_record]
    simpa using this
  obtain ⟨body, same, head, h⟩ := lineYields_record each (by simp) ends
  have text : (Value.record (f :: fields)).yaml.toList = body := by
    rw [toList_yaml]
    simpa [Value.record, Value.yamlLines, entries] using same
  refine scan?_of_lineYields (text ▸ head) ?_ (text ▸ h)
  rw [toList_yaml]
  exact printable_entries each

end AnimatedCanvas.Yaml
