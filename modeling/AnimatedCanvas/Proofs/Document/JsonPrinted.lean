import AnimatedCanvas.Proofs.Document.JsonText

namespace AnimatedCanvas.Json

open Decimal.Literal (digits)

def readNumber? (text : String) : Option Number := do
  let (m, rest) ← number? text.toList
  if rest.isEmpty then m.toNumber? else none

def ReadsBack (n : Number) : Prop := readNumber? (Value.jsonNumber n) = some n

instance (n : Number) : Decidable (ReadsBack n) :=
  inferInstanceAs (Decidable (readNumber? _ = some n))

theorem number?_of_readsBack {n : Number} (h : ReadsBack n) :
    ∃ m, number? (Value.jsonNumber n).toList = some (m, []) ∧ m.toNumber? = some n := by
  obtain ⟨⟨m, rest⟩, read, h⟩ := Option.bind_eq_some_iff.1 h
  dsimp only at h
  split at h
  next whole =>
    obtain rfl := List.isEmpty_iff.1 whole
    exact ⟨m, read, h⟩
  · cases h

theorem toNat?_of_toNumber? {m : JsonNumber} {n : Nat} (h : m.toNumber? = some (.natural n)) :
    m.toNat? = some n := by
  unfold JsonNumber.toNumber? at h
  split at h
  next k whole =>
    cases h
    exact whole
  · dsimp only at h
    split at h
    · cases h
    · obtain ⟨x, -, h⟩ := Option.map_eq_some_iff.1 h
      cases h

theorem toFloat?_of_toNumber? {m : JsonNumber} {x : Float} (h : m.toNumber? = some (.real x)) :
    m.toFloat? = some x := by
  unfold JsonNumber.toNumber? at h
  split at h
  · cases h
  · dsimp only at h
    split at h
    · cases h
    · obtain ⟨y, read, h⟩ := Option.map_eq_some_iff.1 h
      cases h
      exact read

theorem le_ofDigitChars (n : Nat) (ds : List Char) : n ≤ Nat.ofDigitChars 10 ds n := by
  rw [Nat.ofDigitChars_eq_ofDigitChars_zero]
  exact (Nat.le_mul_of_pos_left n (Nat.pow_pos (by decide))).trans (Nat.le_add_right ..)

theorem absorb_of_lt {ds : List Char} {n : Nat} (small : Nat.ofDigitChars 10 ds n < Nat.pow 2 64) :
    JsonNumber.absorb n ds = (Nat.ofDigitChars 10 ds n, ds.length) := by
  induction ds generalizing n with
  | nil => rfl
  | cons c ds ih =>
      rw [Nat.ofDigitChars_cons] at small ⊢
      have fits := (le_ofDigitChars _ ds).trans_lt small
      rw [JsonNumber.absorb]
      dsimp only
      rw [if_pos fits, ih small]
      rfl

theorem digits_eq_self {cs : List Char} (each : ∀ c ∈ cs, c.isDigit = true) :
    digits cs = (cs, []) := by
  rw [digits, List.takeWhile_eq_self_iff.2 each, List.dropWhile_eq_nil_iff.2 each]

theorem head?_toDigits {n : Nat} (positive : 0 < n) : (Nat.toDigits 10 n).head? ≠ some '0' := by
  have digit : ∀ d < 10, 0 < d → [Nat.digitChar d].head? ≠ some '0' := by decide
  induction n using Nat.strongRecOn with
  | ind n ih =>
      by_cases small : n < 10
      · rw [Nat.toDigits_of_lt_base small]
        exact digit n small positive
      · rw [Nat.toDigits_of_base_le (by decide) (by omega),
          List.head?_append_of_ne_nil _ Nat.toDigits_ne_nil]
        exact ih (n / 10) (by omega) (by omega)

theorem number?_toDigits (n : Nat) : number? (Nat.toDigits 10 n) =
    some ({ negative := false, whole := Nat.toDigits 10 n, fraction := [], exponent := none }, []) := by
  have each : ∀ c ∈ Nat.toDigits 10 n, c.isDigit = true :=
    fun c member => Nat.isDigit_of_mem_toDigits (by decide) (by decide) member
  have noSign : ∀ c rest, Nat.toDigits 10 n = c :: rest → c ≠ '-' := by
    rintro c rest same rfl
    exact absurd (each '-' (by simp [same])) (by decide)
  have noZero : (Nat.toDigits 10 n).head? = some '0' → (Nat.toDigits 10 n).length = 1 := by
    intro zero
    obtain rfl | positive := Nat.eq_zero_or_pos n
    · rfl
    · exact absurd zero (head?_toDigits positive)
  rw [number?_of_ne_minus noSign, unsigned?, digits_eq_self each]
  dsimp only
  rw [if_neg (by simpa using noZero)]
  rfl

theorem readsBack_natural {n : Nat} (small : n < Nat.pow 2 64) : ReadsBack (.natural n) := by
  have text : (Value.jsonNumber (.natural n)).toList = Nat.toDigits 10 n := by
    simp [Value.jsonNumber]
  have all : JsonNumber.absorb 0 (Nat.toDigits 10 n) = (n, (Nat.toDigits 10 n).length) := by
    have value : Nat.ofDigitChars 10 (Nat.toDigits 10 n) 0 = n := Nat.ofDigitChars_ten_toDigits
    rw [absorb_of_lt (by rwa [value]), value]
  rw [ReadsBack, readNumber?, text, number?_toDigits]
  simp [JsonNumber.toNumber?, JsonNumber.toNat?, JsonNumber.isWhole, all]

def Reads (w : Value) (text : List Char) : Prop := ∃ j, Represents reading w j ∧ Takes text j

theorem Reads.indent {w : Value} {text : List Char} (h : Reads w text) {margin : List Char}
    (blank : Blank margin) : Reads w (margin ++ text) := by
  obtain ⟨j, represents, takes⟩ := h
  exact ⟨j, represents, takes.indent blank⟩

theorem reads_scalar {w : Value} (h : Value.Scalar ReadsBack w) : Reads w w.json.toList := by
  cases h with
  | natural number =>
      obtain ⟨m, read, same⟩ := number?_of_readsBack number
      exact ⟨.number m, represents_count.2 (toNat?_of_toNumber? same), takes_number read⟩
  | real number =>
      obtain ⟨m, read, same⟩ := number?_of_readsBack number
      refine ⟨.number m, represents_real.2 ⟨toFloat?_of_toNumber? same, .real _, ?_, rfl⟩,
        takes_number read⟩
      simp [reading, toValue?, same]
  | flag b => exact ⟨.flag b, represents_flag.2 rfl, takes_flag b⟩
  | @text s plain => exact ⟨.text (some s), represents_text.2 ⟨rfl, rfl, rfl⟩, takes_text s⟩

theorem reads_empty : Reads (.list []) ['[', ']'] := by
  refine ⟨.list [], represents_list.2 ⟨[], rfl, .nil⟩, ⟨_, _, rfl, by decide⟩,
    fun fuel rest _ enough => ?_⟩
  obtain ⟨fuel, rfl⟩ := Nat.exists_eq_add_of_lt (show 0 < fuel by simp at enough; omega)
  rfl

variable (text : Value → List Char)

theorem reads_list {items : List Value} (nonempty : items ≠ [])
    (each : ∀ w ∈ items, Reads w (text w)) {gap : List Char} (blank : Blank gap) :
    Reads (.list items) ('[' :: ([','].intercalate (items.map text) ++ (gap ++ [']']))) := by
  obtain ⟨js, both⟩ := exists_forall₂ each
  refine ⟨.list js, represents_list.2 ⟨js, rfl, both.imp fun w j h => h.1⟩, ?_⟩
  refine takes_list ?_ (by simpa using nonempty) blank
  exact List.forall₂_map_left_iff.2 (both.imp fun w j h => h.2)

theorem reads_record {fields : List (String × Value)} (nonempty : fields ≠ [])
    (each : ∀ f ∈ fields, Reads f.2 (text f.2)) {margin gap : List Char} (indented : Blank margin)
    (blank : Blank gap) :
    Reads (.record fields) ('\x7b' :: ([','].intercalate
      ((fields.map fun f => (f.1, text f.2)).map (margin ++ fieldText ·)) ++ (gap ++ ['\x7d']))) := by
  have read : ∀ f ∈ fields, ∃ e : String × Json,
      e.1 = f.1 ∧ Represents reading f.2 e.2 ∧ Takes (text f.2) e.2 := by
    intro f member
    obtain ⟨j, h⟩ := each f member
    exact ⟨(f.1, j), rfl, h⟩
  obtain ⟨es, each⟩ := exists_forall₂ read
  refine ⟨.object (es.map fun e => (some e.1, e.2)), represents_record.2
    ⟨es.map fun e => ⟨e.1, .text (some e.1), e.2⟩, fun _ => ?_, ?_, ?_⟩, ?_⟩
  · simp only [reading, List.mapM_map, Function.comp_def, List.map_map]
    exact List.mapM_pure ..
  · simp [reading, Function.comp_def]
  · exact List.forall₂_map_right_iff.2
      (each.imp fun f e h => ⟨h.1, congrArg (fun s => some (Value.text s)) h.1, h.2.1⟩)
  · refine takes_object ?_ (by simpa using nonempty) indented blank
    rw [List.forall₂_map_left_iff, List.forall₂_map_right_iff]
    exact each.imp fun f e h => ⟨congrArg some h.1, h.2.2⟩

theorem Reads.read? {w : Value} {s : String} {body gap : List Char} (h : Reads w body)
    (same : s.toList = body ++ gap) (blank : Blank gap) :
    ∃ j, read? s = some j ∧ Represents reading w j := by
  obtain ⟨j, represents, takes⟩ := h
  refine ⟨j, ?_, represents⟩
  have ends : Closes [] := nofun
  have closes : Closes gap := by simpa using blank.closes ends
  have rest : skipSpace gap = [] := List.dropWhile_eq_nil_iff.2 blank
  unfold Json.read?
  dsimp only
  rw [same, takes.value _ gap closes (by omega)]
  simp [rest]

theorem jsonItems_eq_map (items : List Value) : Value.jsonItems items = items.map Value.json := by
  induction items with
  | nil => rfl
  | cons w items ih => rw [Value.jsonItems, ih, List.map_cons]

theorem jsonEntries_eq_map (entries : List (Value × Value)) :
    Value.jsonEntries entries = entries.map fun e => e.1.json ++ ":" ++ e.2.json := by
  induction entries with
  | nil => rfl
  | cons e entries ih => rw [Value.jsonEntries, ih, List.map_cons]

theorem reads_json_list {items : List Value} (each : ∀ w ∈ items, Reads w w.json.toList) :
    Reads (.list items) (Value.json (.list items)).toList := by
  have layout : (Value.json (.list items)).toList =
      '[' :: ([','].intercalate (items.map fun w => w.json.toList) ++ ([] ++ [']'])) := by
    simp [Value.json, jsonItems_eq_map, String.toList_intercalate, Function.comp_def]
  rw [layout]
  obtain rfl | nonempty := eq_or_ne items []
  · exact reads_empty
  · exact reads_list _ nonempty each (List.forall_mem_nil _)

theorem reads_json_record {fields : List (String × Value)} (nonempty : fields ≠ [])
    (each : ∀ f ∈ fields, Reads f.2 f.2.json.toList) :
    Reads (.record fields) (Value.json (.record fields)).toList := by
  have layout : (Value.json (.record fields)).toList = '\x7b' :: ([','].intercalate
      ((fields.map fun f => (f.1, f.2.json.toList)).map ([] ++ fieldText ·)) ++
        ([] ++ ['\x7d'])) := by
    simp [Value.record, Value.json, jsonEntries_eq_map, String.toList_intercalate,
      Function.comp_def, fieldText]
  rw [layout]
  exact reads_record (fun w => w.json.toList) nonempty each (List.forall_mem_nil _)
    (List.forall_mem_nil _)

theorem reads_json {w : Value} (h : Value.Printed ReadsBack w) : Reads w w.json.toList := by
  induction h with
  | scalar scalar => exact reads_scalar scalar
  | list _ each => exact reads_json_list fun w member => reads_scalar (each w member)
  | record nonempty _ _ ih => exact reads_json_record nonempty ih

theorem read?_json {w : Value} (h : Value.Printed ReadsBack w) :
    ∃ j, read? w.json = some j ∧ Represents reading w j :=
  (reads_json h).read? (List.append_nil _).symm (List.forall_mem_nil _)

theorem prettyItems_eq_map (margin : String) (items : List Value) :
    Value.prettyItems margin items = items.map (Value.jsonPretty margin) := by
  induction items with
  | nil => rfl
  | cons w items ih => rw [Value.prettyItems, ih, List.map_cons]

theorem prettyEntries_eq_map (margin : String) (entries : List (Value × Value)) :
    Value.prettyEntries margin entries =
      entries.map fun e => e.1.json ++ ": " ++ e.2.jsonPretty margin := by
  induction entries with
  | nil => rfl
  | cons e entries ih => rw [Value.prettyEntries, ih, List.map_cons]

theorem cons_intercalate {lines : List (List Char)} (nonempty : lines ≠ []) :
    '\n' :: [',', '\n'].intercalate lines = [','].intercalate (lines.map ('\n' :: ·)) := by
  induction lines with
  | nil => exact absurd rfl nonempty
  | cons line lines ih =>
      cases lines with
      | nil => simp
      | cons line' lines =>
          rw [List.map_cons, List.map_cons, List.intercalate_cons_cons, List.intercalate_cons_cons,
            ← List.map_cons, ← ih (by simp)]
          simp

theorem toList_jsonBlock (opening closing margin : String) {lines : List String}
    (nonempty : lines ≠ []) :
    (Value.jsonBlock opening closing margin lines).toList =
      opening.toList ++ ([','].intercalate
        (lines.map fun line => ('\n' :: (margin ++ "  ").toList) ++ line.toList) ++
          (('\n' :: margin.toList) ++ closing.toList)) := by
  have breaks : [','].intercalate
        (lines.map fun line => ('\n' :: (margin ++ "  ").toList) ++ line.toList) =
      '\n' :: [',', '\n'].intercalate
        (lines.map fun line => (margin ++ "  ").toList ++ line.toList) := by
    rw [cons_intercalate (by simpa using nonempty), List.map_map]
    rfl
  rw [breaks, Value.jsonBlock, if_neg (by simpa using nonempty)]
  simp [String.toList_intercalate, Function.comp_def]

theorem blank_margin {margin : String} (blank : Blank margin.toList) :
    Blank (margin ++ "  ").toList ∧ Blank ('\n' :: margin.toList) := by
  constructor
  · simpa [Blank, or_imp, forall_and, isSpace] using blank
  · simpa [Blank, isSpace] using blank

theorem reads_jsonPretty_list {margin : String} (blank : Blank margin.toList) {items : List Value}
    (each : ∀ w ∈ items, Reads w (w.jsonPretty (margin ++ "  ")).toList) :
    Reads (.list items) (Value.jsonPretty margin (.list items)).toList := by
  rw [Value.jsonPretty, prettyItems_eq_map]
  obtain rfl | nonempty := eq_or_ne items []
  · simpa [Value.jsonBlock] using reads_empty
  · obtain ⟨inner, gap⟩ := blank_margin blank
    rw [toList_jsonBlock _ _ _ (by simpa using nonempty), List.map_map]
    exact reads_list _ nonempty (fun w member => (each w member).indent (blank_margin inner).2) gap

theorem reads_jsonPretty_record {margin : String} (blank : Blank margin.toList)
    {fields : List (String × Value)} (nonempty : fields ≠ [])
    (each : ∀ f ∈ fields, Reads f.2 (f.2.jsonPretty (margin ++ "  ")).toList) :
    Reads (.record fields) (Value.jsonPretty margin (.record fields)).toList := by
  obtain ⟨inner, gap⟩ := blank_margin blank
  rw [Value.record, Value.jsonPretty, prettyEntries_eq_map,
    toList_jsonBlock _ _ _ (by simpa using nonempty)]
  have layout := reads_record (fun w => [' '] ++ (w.jsonPretty (margin ++ "  ")).toList)
    nonempty (fun f member => (each f member).indent (by simp [Blank, isSpace]))
    (blank_margin inner).2 gap
  simpa [Value.record, Function.comp_def, fieldText, Value.json] using layout

theorem reads_jsonPretty_scalar {w : Value} (h : Value.Scalar ReadsBack w) (margin : String) :
    Reads w (w.jsonPretty margin).toList := by
  have same : w.jsonPretty margin = w.json := by cases h <;> rfl
  rw [same]
  exact reads_scalar h

theorem reads_jsonPretty {w : Value} (h : Value.Printed ReadsBack w) {margin : String}
    (blank : Blank margin.toList) : Reads w (w.jsonPretty margin).toList := by
  induction h generalizing margin with
  | scalar scalar => exact reads_jsonPretty_scalar scalar margin
  | list _ each =>
      exact reads_jsonPretty_list blank fun w member => reads_jsonPretty_scalar (each w member) _
  | record nonempty _ _ ih =>
      exact reads_jsonPretty_record blank nonempty fun f member => ih f member (blank_margin blank).1

end AnimatedCanvas.Json
