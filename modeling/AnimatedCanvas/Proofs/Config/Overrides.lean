import AnimatedCanvas.Proofs.Config.Obtained
import AnimatedCanvas.Proofs.Document.Denotes

/-!
# Overrides change what they name

A patch is layered over the document that a configuration is written as, and the result is decoded
again. `Recorded.read?_merge` says what this does to each part of a record: the part is decoded from
its own document with the patch's value of that name layered over it. Applied to the configuration
and then to the records in it, this settles every field.
-/

namespace AnimatedCanvas

open Reading

theorem lookup_of_record? {names : List String} {entries : List (Value × Value)}
    {fields : List (String × Value)} {name : String} {v : Value}
    (record : Value.reading.record? names (.map entries) = some fields) (known : name ∈ names)
    (found : Value.find? entries (.text name) = some v) : fields.lookup name = some v := by
  obtain ⟨all, named, kept⟩ := Option.bind_eq_some_iff.1 record
  simp only [Value.reading, Value.bare] at named
  have inside : (name, v) ∈ all := by
    obtain ⟨f, inside, same⟩ :=
      exists_mem_of_forall₂ (Codec.mapM_eq_some_iff.1 named) (Value.mem_of_find? found)
    cases same
    exact inside
  unfold known? at kept
  dsimp only at kept
  split at kept
  next distinct =>
    cases kept
    exact lookup_of_mem distinct (List.mem_filter.2 ⟨inside, List.contains_iff_mem.2 known⟩)
  · cases kept

def Value.Untagged (v : Value) : Prop := ∀ tag content, v ≠ .tagged tag content

namespace Recorded

variable {α : Type} [Recorded α]

def fields (c : α) : List (String × Value) := parts.map fun p => (p.name, p.codec.value (p.get c))

theorem names_fields (c : α) : (fields c).map Prod.fst = (parts (α := α)).map Part.name := by
  rw [fields, List.map_map]
  rfl

theorem nodup_fields (c : α) : ((fields c).map Prod.fst).Nodup := (names_fields c).symm ▸ nodup

theorem exists_merge {c c' : α} {patch : Value} (distinct : patch.Distinct)
    (untagged : patch.Untagged) (h : read? Value.reading ((value c).merge patch) = some c') :
    ∃ entries : List (Value × Value), (entries.Pairwise fun a b => a.1.same b.1 = false) ∧
      (∀ name, patch.member name = (Value.map entries).member name) ∧
      (value c).merge patch = (Value.record (fields c)).merge (.map entries) := by
  rw [value_eq] at h ⊢
  obtain ⟨_, record, -⟩ := read?_eq_some.1 h
  cases patch with
  | map entries => exact ⟨entries, distinct.keys, fun _ => rfl, rfl⟩
  | null =>
      refine ⟨[], .nil, fun _ => rfl, ?_⟩
      rw [Value.merge_null]
      change Value.map _ = (Value.map _).merge (.map [])
      rw [Value.merge, Value.mergeEntries]
      rfl
  | tagged tag content => exact absurd rfl (untagged tag content)
  | _ => rw [Value.merge] at record; cases record

theorem read?_merge {c c' : α} {patch : Value} (distinct : patch.Distinct)
    (untagged : patch.Untagged) (h : read? Value.reading ((value c).merge patch) = some c') :
    ∀ q ∈ parts, q.codec.read? Value.reading
      ((q.codec.value (q.get c)).merge (patch.member q.name)) = some (q.get c') := by
  intro q member
  obtain ⟨entries, keys, same, layered⟩ := exists_merge distinct untagged h
  obtain ⟨merged, there, found⟩ :=
    Value.member_merge_record (nodup_fields c) keys (List.mem_map_of_mem member)
  rw [layered, there] at h
  obtain ⟨fields, record, read⟩ := read?_eq_some.1 h
  have part := read q member
  rw [field, lookup_of_record? record (List.mem_map_of_mem member) found] at part
  rwa [same]

end Recorded

def Codec.Flat {β : Type} (codec : Codec β) : Prop := ∀ b entries, codec.value b ≠ .map entries

/-- A field of a configuration that is no record: where a document has it, and how it is read
there. -/
structure Leaf (α : Type) where
  {β : Type}
  path : List String
  get : α → β
  read? : Value → Option β

namespace Leaf

variable {α β : Type}

def within (name : String) (get : α → β) (l : Leaf β) : Leaf α :=
  ⟨name :: l.path, fun c => l.get (get c), l.read?⟩

structure Overridden (l : Leaf α) (c : α) (patch : Value) (c' : α) : Prop where
  kept : patch.under l.path = .null → l.get c' = l.get c
  replaced : patch.under l.path ≠ .null → l.read? (patch.under l.path) = some (l.get c')

theorem Overridden.within {name : String} {get : α → β} {l : Leaf β} {c c' : α} {patch : Value}
    (h : l.Overridden (get c) (patch.member name) (get c')) :
    (l.within name get).Overridden c patch c' :=
  ⟨h.kept, h.replaced⟩

end Leaf

def Part.leaf {α : Type} (q : Part α) : Leaf α := ⟨[q.name], q.get, q.codec.read? Value.reading⟩

namespace Recorded

variable {α : Type} [Recorded α]

theorem get_eq_of_member_eq_null {c c' : α} {patch : Value} (distinct : patch.Distinct)
    (untagged : patch.Untagged) (h : read? Value.reading ((value c).merge patch) = some c')
    (regular : Regular c) {q : Part α} (member : q ∈ parts) (null : patch.member q.name = .null) :
    q.get c' = q.get c := by
  have read := read?_merge distinct untagged h q member
  rw [null, Value.merge_null,
    q.codec.read?_of_represents (regular q member) (q.codec.represents_value _)] at read
  exact (Option.some.inj read).symm

theorem overridden_leaf {c c' : α} {patch : Value} (distinct : patch.Distinct)
    (untagged : patch.Untagged) (h : read? Value.reading ((value c).merge patch) = some c')
    (regular : Regular c) {q : Part α} (member : q ∈ parts) (flat : q.codec.Flat) :
    q.leaf.Overridden c patch c' where
  kept := get_eq_of_member_eq_null distinct untagged h regular member
  replaced given := by
    have read := read?_merge distinct untagged h q member
    rwa [Value.merge_of_ne_null (flat _) (show patch.member q.name ≠ .null from given)] at read

def leaves (α : Type) [Recorded α] : List (Leaf α) := parts.map Part.leaf

theorem overridden_leaves {c c' : α} {patch : Value} (distinct : patch.Distinct)
    (untagged : patch.Untagged) (h : read? Value.reading ((value c).merge patch) = some c')
    (regular : Regular c) (flat : ∀ q ∈ parts (α := α), q.codec.Flat) :
    ∀ l ∈ leaves α, l.Overridden c patch c' := by
  intro l member
  obtain ⟨q, inside, rfl⟩ := List.mem_map.1 member
  exact overridden_leaf distinct untagged h regular inside (flat q inside)

end Recorded

theorem TrailConfig.flat : ∀ q ∈ Recorded.parts (α := TrailConfig), q.codec.Flat := by
  simp [Recorded.parts, Codec.Flat, Value.count, Value.real]

theorem PointerConfig.flat : ∀ q ∈ Recorded.parts (α := PointerConfig), q.codec.Flat := by
  simp [Recorded.parts, Codec.Flat, Value.real]

theorem BurstConfig.flat : ∀ q ∈ Recorded.parts (α := BurstConfig), q.codec.Flat := by
  simp [Recorded.parts, Codec.Flat, Value.count, Value.real, Span.value]

theorem WaveConfig.flat : ∀ q ∈ Recorded.parts (α := WaveConfig), q.codec.Flat := by
  simp [Recorded.parts, Codec.Flat, Value.real, Span.value, Color.paletteValue]

theorem LinkConfig.flat : ∀ q ∈ Recorded.parts (α := LinkConfig), q.codec.Flat := by
  simp [Recorded.parts, Codec.Flat, Value.real, Color.value]

theorem CircuitConfig.flat : ∀ q ∈ Recorded.parts (α := CircuitConfig), q.codec.Flat := by
  simp [Recorded.parts, Codec.Flat, Value.count, Value.real, Span.value]

namespace FieldConfig

theorem flat_ownParts : ∀ q ∈ ownParts, q.codec.Flat := by
  simp [ownParts, Codec.Flat, Value.count, Value.real, Span.value, Color.paletteValue]

def leaves : List (Leaf FieldConfig) :=
  ownParts.map Part.leaf ++
    (Recorded.leaves TrailConfig).map (.within "trail" (·.trail)) ++
    (Recorded.leaves PointerConfig).map (.within "pointer" (·.pointer)) ++
    (Recorded.leaves BurstConfig).map (.within "burst" (·.burst)) ++
    (Recorded.leaves WaveConfig).map (.within "waves" (·.waves)) ++
    (Recorded.leaves LinkConfig).map (.within "links" (·.links))

/-- These and the backdrop are all that there is. -/
theorem eq_of_leaves {c c' : FieldConfig} (same : ∀ l ∈ leaves, l.get c' = l.get c)
    (backdrop : c'.backdrop = c.backdrop) : c' = c := by
  obtain ⟨_, _, _, _, _, _, _, _, _, _, _, ⟨⟩, ⟨⟩, ⟨⟩, ⟨⟩, ⟨⟩⟩ := c
  obtain ⟨_, _, _, _, _, _, _, _, _, _, _, ⟨⟩, ⟨⟩, ⟨⟩, ⟨⟩, ⟨⟩⟩ := c'
  simp only [leaves, ownParts, Recorded.leaves, Recorded.parts, List.map_cons, List.map_nil,
    List.cons_append, List.nil_append, List.forall_mem_cons] at same
  simp_all [Part.leaf, Leaf.within]

def recordPaths : List (List String) := [] :: records.map fun q => [q.name]

theorem overridden_within {β : Type} [Recorded β] {name : String} {get : FieldConfig → β}
    {c c' : FieldConfig} {patch : Value} (distinct : patch.Distinct)
    (untagged : ∀ path ∈ recordPaths, (patch.under path).Untagged)
    (h : Recorded.read? Value.reading ((Recorded.value c).merge patch) = some c')
    (regular : Recorded.Regular c) (member : .record name get ∈ records)
    (flat : ∀ q ∈ Recorded.parts (α := β), q.codec.Flat) :
    ∀ l ∈ (Recorded.leaves β).map (Leaf.within name get), l.Overridden c patch c' := by
  intro l inside
  obtain ⟨l, leaf, rfl⟩ := List.mem_map.1 inside
  have part : .record name get ∈ Recorded.parts (α := FieldConfig) := by
    exact List.mem_append_right _ (List.mem_cons_of_mem _ member)
  have read := Recorded.read?_merge distinct (untagged [] List.mem_cons_self) h _ part
  exact (Recorded.overridden_leaves (distinct.member name)
    (untagged [name] (List.mem_cons_of_mem _ (List.mem_map_of_mem member))) read
    (regular _ part) flat l leaf).within

theorem overridden_leaves {c c' : FieldConfig} {patch : Value} (distinct : patch.Distinct)
    (untagged : ∀ path ∈ recordPaths, (patch.under path).Untagged)
    (h : Recorded.read? Value.reading ((Recorded.value c).merge patch) = some c')
    (regular : Recorded.Regular c) : ∀ l ∈ leaves, l.Overridden c patch c' := by
  intro l member
  simp only [leaves, List.mem_append] at member
  obtain ((((own | trail) | pointer) | burst) | waves) | links := member
  · obtain ⟨q, inside, rfl⟩ := List.mem_map.1 own
    exact Recorded.overridden_leaf distinct (untagged [] List.mem_cons_self) h regular
      (List.mem_append_left _ inside) (flat_ownParts q inside)
  · exact overridden_within distinct untagged h regular (by simp [records]) TrailConfig.flat l trail
  · exact overridden_within distinct untagged h regular (by simp [records]) PointerConfig.flat l pointer
  · exact overridden_within distinct untagged h regular (by simp [records]) BurstConfig.flat l burst
  · exact overridden_within distinct untagged h regular (by simp [records]) WaveConfig.flat l waves
  · exact overridden_within distinct untagged h regular (by simp [records]) LinkConfig.flat l links

end FieldConfig

open AnimatedCanvas.Configuration

theorem read?_of_withOverrides {α : Type} [RecordedConfiguration α] {c c' : α} {text : String}
    {patch : Value} (denotes : (Yaml.Tree.read? text).bind Yaml.Tree.value? = some patch)
    (done : withOverrides c text = .ok c') :
    patch.Distinct ∧ Recorded.read? Value.reading ((Recorded.value c).merge patch) = some c' := by
  obtain ⟨t, -, valued⟩ := Option.bind_eq_some_iff.1 denotes
  obtain ⟨patch', denotes', layered⟩ := withOverrides_eq_ok.1 done
  obtain rfl := Option.some.inj (denotes.symm.trans denotes')
  exact ⟨Yaml.Tree.distinct_of_value? valued, (checked_eq_ok.1 layered).1⟩

theorem withOverrides_null {α : Type} [RecordedConfiguration α] {c : α} {text : String}
    (regular : Recorded.Regular c) (valid : validate c = .ok ())
    (denotes : (Yaml.Tree.read? text).bind Yaml.Tree.value? = some .null) :
    withOverrides c text = .ok c := by
  refine withOverrides_eq_ok.2 ⟨.null, denotes, checked_eq_ok.2 ⟨?_, valid⟩⟩
  rw [Value.merge_null]
  exact Recorded.read?_of_represents regular (Recorded.represents_value c)

theorem scan?_tracks : Yaml.Token.scan? "tracks: 7\n" =
    some [.blockMapStart, .key, .scalar .plain "tracks", .value, .scalar .plain "7", .blockEnd] := by
  decide +kernel

theorem value?_tracks : (Yaml.Tree.read? "tracks: 7\n").bind Yaml.Tree.value? =
    some (.map [(.text "tracks", .count 7)]) := by
  rw [Yaml.Tree.read?, scan?_tracks]
  rfl

theorem withOverrides_tracks :
    withOverrides ({} : CircuitConfig) "tracks: 7\n" = .ok { tracks := 7 } :=
  withOverrides_eq_ok.2 ⟨_, value?_tracks, rfl⟩

/-- Overrides change exactly what they name. -/
theorem withOverrides_changes_named :
    (∀ (c c' : FieldConfig) (text : String) (patch : Value), Obtained FieldConfig.Given c →
      (Yaml.Tree.read? text).bind Yaml.Tree.value? = some patch →
      (∀ path ∈ FieldConfig.recordPaths, (patch.under path).Untagged) →
      withOverrides c text = .ok c' →
      (∀ l ∈ FieldConfig.leaves, l.Overridden c patch c') ∧
        (patch.under ["backdrop"] = .null → c'.backdrop = c.backdrop)) ∧
    (∀ (c c' : CircuitConfig) (text : String) (patch : Value), Obtained CircuitConfig.Given c →
      (Yaml.Tree.read? text).bind Yaml.Tree.value? = some patch → patch.Untagged →
      withOverrides c text = .ok c' →
      ∀ l ∈ Recorded.leaves CircuitConfig, l.Overridden c patch c') := by
  constructor
  · intro c c' text patch obtained denotes untagged done
    have regular := obtained.regular FieldConfig.Given.regular
    obtain ⟨distinct, read⟩ := read?_of_withOverrides denotes done
    refine ⟨FieldConfig.overridden_leaves distinct untagged read regular, fun null => ?_⟩
    have part : ⟨"backdrop", (·.backdrop), .backdrop⟩ ∈ Recorded.parts (α := FieldConfig) :=
      List.mem_append_right _ List.mem_cons_self
    exact Recorded.get_eq_of_member_eq_null distinct (untagged [] List.mem_cons_self) read regular
      part null
  · intro c c' text patch obtained denotes untagged done
    have regular := obtained.regular CircuitConfig.Given.regular
    obtain ⟨distinct, read⟩ := read?_of_withOverrides denotes done
    exact Recorded.overridden_leaves distinct untagged read regular CircuitConfig.flat

theorem withOverrides_changes_named_cap :
    (withOverrides FieldConfig.quantum "trail:\n  cap: 3\n" =
        .ok { FieldConfig.quantum with trail := { cap := 3 } } ∧
      (∀ l ∈ FieldConfig.leaves, l.Overridden FieldConfig.quantum
        (.map [(.text "trail", .map [(.text "cap", .count 3)])])
        { FieldConfig.quantum with trail := { cap := 3 } })) ∧
    (withOverrides ({} : CircuitConfig) "tracks: 7\n" = .ok { tracks := 7 } ∧
      ∀ l ∈ Recorded.leaves CircuitConfig,
        l.Overridden {} (.map [(.text "tracks", .count 7)]) { tracks := 7 }) := by
  have scan : Yaml.Token.scan? "trail:\n  cap: 3\n" =
      some [.blockMapStart, .key, .scalar .plain "trail", .value, .blockMapStart, .key,
        .scalar .plain "cap", .value, .scalar .plain "3", .blockEnd, .blockEnd] := by
    decide +kernel
  have denotes : (Yaml.Tree.read? "trail:\n  cap: 3\n").bind Yaml.Tree.value? =
      some (.map [(.text "trail", .map [(.text "cap", .count 3)])]) := by
    rw [Yaml.Tree.read?, scan]
    rfl
  have done : withOverrides FieldConfig.quantum "trail:\n  cap: 3\n" =
      .ok { FieldConfig.quantum with trail := { cap := 3 } } :=
    withOverrides_eq_ok.2 ⟨_, denotes, rfl⟩
  refine ⟨⟨done, ?_⟩, withOverrides_tracks, ?_⟩
  · exact (withOverrides_changes_named.1 _ _ _ _ (.given (.inl rfl)) denotes
      (by simp [FieldConfig.recordPaths, FieldConfig.records, Value.Untagged, Value.under,
        Value.member, Value.find?, Value.same]) done).1
  · exact withOverrides_changes_named.2 _ _ _ _ (.given rfl) value?_tracks
      (by simp [Value.Untagged]) withOverrides_tracks

end AnimatedCanvas
