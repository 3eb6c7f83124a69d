import AnimatedCanvas.Proofs.Config.Obtained
import AnimatedCanvas.Proofs.Document.Denotes

namespace AnimatedCanvas

open Reading

/-! ## Values -/

namespace Value

inductive Sized : Value → Prop where
  | leaf {v : Value} (untagged : ∀ tag content, v ≠ .tagged tag content)
    (flat : ∀ entries, v ≠ .map entries) (word : ∀ n, v = .count n → n < 2 ^ 64) : Sized v
  | tagged {tag : String} {content : Value} (sized : Sized content) : Sized (.tagged tag content)
  | map {entries : List (Value × Value)} (parts : ∀ e ∈ entries, Sized e.2) : Sized (.map entries)

@[simp] theorem sized_map {entries : List (Value × Value)} :
    Sized (.map entries) ↔ ∀ e ∈ entries, Sized e.2 := by
  refine ⟨fun h => ?_, .map⟩
  cases h with
  | leaf _ flat => exact absurd rfl (flat entries)
  | map parts => exact parts

@[simp] theorem sized_record {fields : List (String × Value)} :
    Sized (record fields) ↔ ∀ f ∈ fields, Sized f.2 := by
  rw [record, sized_map, List.forall_mem_map]

@[simp] theorem sized_tagged {tag : String} {content : Value} :
    Sized (.tagged tag content) ↔ Sized content := by
  refine ⟨fun h => ?_, .tagged⟩
  cases h with
  | leaf untagged => exact absurd rfl (untagged tag content)
  | tagged sized => exact sized

@[simp] theorem sized_count {n : Nat} : Sized (.count n) ↔ n < 2 ^ 64 := by
  constructor
  · intro h
    cases h with
    | leaf _ _ word => exact word n rfl
  · intro word
    refine .leaf (by simp [count]) (by simp [count]) fun m same => ?_
    cases same
    exact word

@[simp] theorem sized_real (x : Float) : Sized (.real x) := .leaf nofun nofun nofun

@[simp] theorem sized_flag (b : Bool) : Sized (.flag b) := .leaf nofun nofun nofun

@[simp] theorem sized_text (s : String) : Sized (.text s) := .leaf nofun nofun nofun

@[simp] theorem sized_null : Sized .null := .leaf nofun nofun nofun

@[simp] theorem sized_list (items : List Value) : Sized (.list items) := .leaf nofun nofun nofun

theorem Sized.bare {v : Value} (h : v.Sized) : v.bare.Sized := by
  induction h with
  | @leaf v untagged flat word =>
      have same : v.bare = v := by
        cases v with
        | tagged tag content => exact absurd rfl (untagged tag content)
        | _ => rfl
      rw [same]
      exact .leaf untagged flat word
  | tagged _ ih => exact ih
  | map parts => exact .map parts

/-! ## Layering -/

theorem sized_put {entries : List (Value × Value)} {v : Value} (parts : ∀ e ∈ entries, Sized e.2)
    (sized : v.Sized) (key : Value) : ∀ e ∈ put entries key v, Sized e.2 := by
  unfold put
  split
  · refine List.forall_mem_map.mpr fun e member => ?_
    cases known : e.1.same key with
    | true => simpa [known] using sized
    | false => simpa [known] using parts e member
  · exact List.forall_mem_append.mpr ⟨parts, List.forall_mem_singleton.mpr sized⟩

theorem sized_of_find? {entries : List (Value × Value)} {key v : Value}
    (parts : ∀ e ∈ entries, Sized e.2) (found : find? entries key = some v) : v.Sized := by
  obtain ⟨e, first, rfl⟩ := Option.map_eq_some_iff.mp found
  exact parts e (List.mem_of_find?_eq_some first)

theorem sized_mergeEntries {patch : List (Value × Value)} (sized : ∀ e ∈ patch, Sized e.2)
    (merged : ∀ e ∈ patch, ∀ base : Value, base.Sized → (base.merge e.2).Sized) :
    ∀ {entries : List (Value × Value)}, (∀ e ∈ entries, Sized e.2) →
      ∀ e ∈ mergeEntries entries patch, Sized e.2 := by
  induction patch with
  | nil =>
      intro entries parts
      rwa [mergeEntries]
  | cons e patch ih =>
      obtain ⟨key, v⟩ := e
      obtain ⟨here, later⟩ := List.forall_mem_cons.mp sized
      obtain ⟨mergedHere, mergedLater⟩ := List.forall_mem_cons.mp merged
      intro entries parts
      rw [mergeEntries]
      refine ih later mergedLater (sized_put parts ?_ key)
      split
      next old found => exact mergedHere old (sized_of_find? parts found)
      next => exact here

theorem Sized.merge {patch : Value} (h : patch.Sized) :
    ∀ {base : Value}, base.Sized → (base.merge patch).Sized := by
  -- Only where a mapping comes over a mapping are there parts of both.
  induction h with
  | @leaf patch untagged flat word =>
      intro base sized
      cases patch with
      | null => rwa [merge_null]
      | map entries => exact absurd rfl (flat entries)
      | tagged tag content => exact absurd rfl (untagged tag content)
      | _ => rw [Value.merge]; exact .leaf untagged flat word
  | tagged sized =>
      intro base _
      rw [Value.merge]
      exact .tagged sized
  | @map patch parts ih =>
      intro base sized
      cases base with
      | map entries =>
          rw [Value.merge]
          exact .map (sized_mergeEntries parts (fun e member _ => ih e member) (sized_map.mp sized))
      | _ => simp only [Value.merge]; exact .map parts

end Value

/-! ## Values of YAML texts -/

namespace Yaml

theorem Kind.sized {s : String} {w : Value} (h : Kind s w) : w.Sized := by
  cases h with
  | natural read => exact Value.sized_count.mpr (naturalText?_eq_some.mp read).2
  | zero => exact Value.sized_count.mpr (by decide)
  | negative => exact .leaf nofun nofun nofun
  | null => exact Value.sized_null
  | flag => exact Value.sized_flag _
  | real => exact Value.sized_real _
  | text => exact Value.sized_text _

namespace Tree

theorem sized_of_named? {tag : Option String} {content w : Value} (sized : content.Sized)
    (h : named? tag content = some w) : w.Sized := by
  unfold named? at h
  split at h
  · cases h
    exact sized
  · split at h
    · cases h
    · cases h
      exact .tagged sized

theorem Stands.sized {t : Tree} {v : Node} {w : Value} (h : t.Stands (fun _ w => w.Sized) v w) :
    w.Sized := by
  cases h with
  | scalar _ value =>
      obtain ⟨-, kind⟩ | ⟨name, content, -, rfl, kind⟩ := kind_of_scalarNode? value
      · exact kind.sized
      · exact .tagged kind.sized
  | list _ _ value => exact sized_of_named? (Value.sized_list _) value
  | map _ parts _ value =>
      refine sized_of_named? (.map fun e member => ?_) value
      obtain ⟨_, -, related⟩ := exists_mem_of_forall₂ parts.flip member
      exact related.2

theorem sized_of_valueOf? {t : Tree} (depth : Nat) :
    ∀ {v : Node} {budget rest : Nat} {w : Value},
      t.valueOf? depth v budget = some (w, rest) → w.Sized := by
  induction depth using Nat.strong_induction_on with
  | h depth ih =>
      intro v budget rest w valued
      exact (stands_of_valueOf? (fun less below _ _ _ _ part => ih less below part) valued).sized

theorem sized_of_value? {t : Tree} {w : Value} (h : t.value? = some w) : w.Sized := by
  obtain ⟨depth, budget, rest, valued⟩ := denotes_of_value? h
  exact sized_of_valueOf? depth valued

end Tree
end Yaml

/-! ## Readings -/

/-- Counts that are read at good nodes are machine words, and fields of good nodes are good. -/
structure Reading.Bounded {ν : Type} (r : Reading ν) (good : ν → Prop) : Prop where
  count : ∀ {v : ν} {n : Nat}, good v → r.count? v = some n → n < 2 ^ 64
  fields : ∀ {names : List String} {v : ν} {fields : List (String × ν)}, good v →
    r.fields? names v = some fields → ∀ f ∈ fields, good f.2

theorem Yaml.Tree.bounded_reading (t : Yaml.Tree) : t.reading.Bounded fun _ => True where
  count := by
    intro v n _ read
    obtain ⟨node, -, read⟩ := Option.bind_eq_some_iff.mp read
    obtain ⟨s, -, natural⟩ := Option.bind_eq_some_iff.mp read
    exact (naturalText?_eq_some.mp natural).2
  fields _ _ _ _ := trivial

theorem JsonNumber.absorb_lt (digits : List Char) : ∀ {n : Nat}, n < 2 ^ 64 →
    (absorb n digits).1 < 2 ^ 64 := by
  induction digits with
  | nil => exact id
  | cons c digits ih =>
      intro n word
      rw [absorb]
      split
      next small => exact ih small
      next => exact word

theorem Json.bounded_reading : Json.reading.Bounded fun _ => True where
  count := by
    intro v n _ read
    cases v with
    | number m =>
        obtain ⟨-, rfl⟩ : _ ∧ (JsonNumber.absorb 0 m.whole).1 = n := by
          simpa [Json.reading, JsonNumber.toNat?] using read
        exact JsonNumber.absorb_lt m.whole (by decide)
    | _ => cases read
  fields _ _ _ _ := trivial

theorem Value.bounded_reading : Value.reading.Bounded Value.Sized where
  count := by
    intro v n sized read
    have bare := sized.bare
    simp only [Value.reading] at read
    split at read
    next m same =>
      cases read
      rw [same] at bare
      exact sized_count.mp bare
    · cases read
  fields := by
    intro names v fields sized read f member
    have bare := sized.bare
    simp only [Value.reading] at read
    split at read
    next entries same =>
      rw [same, sized_map] at bare
      obtain ⟨e, inside, named⟩ := exists_mem_of_forall₂ (Codec.mapM_eq_some_iff.mp read).flip member
      split at named
      · cases named
        exact bare e inside
      · cases named
    · cases read
      cases member
    · cases read

/-! ## Records -/

theorem Recorded.part_of_read? {α ν : Type} [Recorded α] {r : Reading ν} {good : ν → Prop}
    (bounded : r.Bounded good) {v : ν} (here : good v) {c : α} (h : Recorded.read? r v = some c)
    {p : Part α} (member : p ∈ parts) :
    p.get c = p.get initial ∨ ∃ u, good u ∧ p.codec.read? r u = some (p.get c) := by
  obtain ⟨fields, record, read⟩ := read?_eq_some.mp h
  obtain ⟨all, named, known⟩ := Option.bind_eq_some_iff.mp record
  have read := read p member
  unfold field at read
  split at read
  · exact .inl (Option.some.inj read).symm
  next u found =>
    refine .inr ⟨u, ?_, read⟩
    obtain ⟨before, after, rfl, -⟩ := List.lookup_eq_some_iff.mp found
    unfold known? at known
    dsimp only at known
    split at known
    · have inside : (p.name, u) ∈ before ++ (p.name, u) :: after := by simp
      rw [← Option.some.inj known] at inside
      exact bounded.fields here named _ (List.mem_of_mem_filter inside)
    · cases known

theorem Recorded.count_of_read? {α ν : Type} [Recorded α] {r : Reading ν} {good : ν → Prop}
    (bounded : r.Bounded good) {v : ν} (here : good v) {c : α} (h : Recorded.read? r v = some c)
    (name : String) (get : α → Nat) (member : .count name get ∈ parts (α := α))
    (word : get initial < 2 ^ 64) : get c < 2 ^ 64 := by
  obtain same | ⟨u, there, read⟩ := part_of_read? bounded here h member
  · exact word.trans_eq' same.symm
  · exact bounded.count there read

theorem Recorded.count_of_record? {α β ν : Type} [Recorded α] [Recorded β] {r : Reading ν}
    {good : ν → Prop} (bounded : r.Bounded good) {v : ν} (here : good v) {c : α}
    (h : Recorded.read? r v = some c) (name name' : String) (get : α → β) (get' : β → Nat)
    (member : .record name get ∈ parts (α := α)) (member' : .count name' get' ∈ parts (α := β))
    (word : get' (get initial) < 2 ^ 64) (word' : get' initial < 2 ^ 64) : get' (get c) < 2 ^ 64 := by
  obtain same | ⟨u, there, read⟩ := part_of_read? bounded here h member
  · exact word.trans_eq' (congrArg get' same.symm)
  · exact count_of_read? bounded there read name' get' member' word'

/-! ## Configurations -/

namespace FieldConfig

structure Words (c : FieldConfig) : Prop where
  targetCount : c.targetCount < 2 ^ 64
  trailCap : c.trail.cap < 2 ^ 64
  burstCount : c.burst.count < 2 ^ 64

theorem words_of_read? {ν : Type} {r : Reading ν} {good : ν → Prop} (bounded : r.Bounded good)
    {v : ν} (here : good v) {c : FieldConfig} (h : Recorded.read? r v = some c) : c.Words where
  targetCount := Recorded.count_of_read? bounded here h "target_count" (·.targetCount)
    (by simp [Recorded.parts, ownParts]) (by decide)
  trailCap := Recorded.count_of_record? bounded here h "trail" "cap" (·.trail) (·.cap)
    (by simp [Recorded.parts, records]) (by simp [Recorded.parts]) (by decide) (by decide)
  burstCount := Recorded.count_of_record? bounded here h "burst" "count" (·.burst) (·.count)
    (by simp [Recorded.parts, records]) (by simp [Recorded.parts]) (by decide) (by decide)

theorem Words.sized {c : FieldConfig} (h : c.Words) : (Recorded.value c).Sized := by
  have backdrop : c.backdrop.value.Sized := by
    cases c.backdrop <;> simp [Backdrop.value, Color.value]
  have trail : c.trail.value.Sized := by simpa [TrailConfig.value] using h.trailCap
  have pointer : c.pointer.value.Sized := by simp [PointerConfig.value]
  have burst : c.burst.value.Sized := by simpa [BurstConfig.value, Span.value] using h.burstCount
  have waves : c.waves.value.Sized := by simp [WaveConfig.value, Span.value, Color.paletteValue]
  have links : c.links.value.Sized := by simp [LinkConfig.value, Color.value]
  change c.value.Sized
  simpa [value, Span.value, Color.paletteValue, *] using h.targetCount

end FieldConfig

open AnimatedCanvas.Configuration

theorem FieldConfig.words_of_ofYaml {text : String} {c : FieldConfig} (h : ofYaml text = .ok c) :
    c.Words := by
  obtain ⟨t, -, read⟩ := Option.bind_eq_some_iff.mp (checked_eq_ok.mp h).1
  exact words_of_read? t.bounded_reading trivial read

theorem FieldConfig.words_of_ofJson {text : String} {c : FieldConfig} (h : ofJson text = .ok c) :
    c.Words := by
  obtain ⟨j, -, read⟩ := Option.bind_eq_some_iff.mp (checked_eq_ok.mp h).1
  exact words_of_read? Json.bounded_reading trivial read

theorem FieldConfig.Given.words {c : FieldConfig} (h : c.Given) : c.Words := by
  obtain rfl | rfl | rfl := h.cases
  · exact ⟨by decide, by decide, by decide⟩
  · exact ⟨by decide, by decide, by decide⟩
  · exact ⟨by decide, by decide, by decide⟩

theorem Obtained.words {c : FieldConfig} (h : Obtained FieldConfig.Given c) : c.Words := by
  induction h with
  | given start => exact start.words
  | ofYaml read => exact FieldConfig.words_of_ofYaml read
  | ofJson read => exact FieldConfig.words_of_ofJson read
  | load read =>
      obtain ⟨text, read | read⟩ := ofJson_or_ofYaml_of_load read
      · exact FieldConfig.words_of_ofJson read
      · exact FieldConfig.words_of_ofYaml read
  | withOverrides _ layered ih =>
      obtain ⟨patch, denotes, done⟩ := withOverrides_eq_ok.mp layered
      obtain ⟨t, -, valued⟩ := Option.bind_eq_some_iff.mp denotes
      exact FieldConfig.words_of_read? Value.bounded_reading
        ((Yaml.Tree.sized_of_value? valued).merge ih.sized) (checked_eq_ok.mp done).1

end AnimatedCanvas
