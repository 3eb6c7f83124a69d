import AnimatedCanvas.Proofs.Config.Paths

namespace AnimatedCanvas

open Reading

namespace Value

theorem null_merge (v : Value) : null.merge v = v := by
  cases v <;> simp only [merge]

theorem merge_of_flat {base v : Value} (given : v ≠ .null) (flat : ∀ entries, v ≠ .map entries) :
    base.merge v = v := by
  cases v with
  | null => exact absurd rfl given
  | map entries => exact absurd rfl (flat entries)
  | _ => rw [merge]

theorem merge_again {β : Type} {read : Value → Option β} {base own patch : Value} {b : β}
    (flat : ∀ entries, base ≠ .map entries) (flat' : ∀ entries, own ≠ .map entries)
    (stands : read own = some b) (h : read (base.merge patch) = some b) :
    read (own.merge patch) = some b := by
  by_cases null : patch = .null
  · rw [null, merge_null, stands]
  · rw [merge_of_ne_null flat null] at h
    rw [merge_of_ne_null flat' null, h]

def layeredFields (fields : List (String × Value)) (patch : Value) : List (String × Value) :=
  fields.map fun f => (f.1, f.2.merge (patch.member f.1))

def beside (names : List String) (patch : List (Value × Value)) : List (Value × Value) :=
  patch.filter fun e => !names.any fun name => (text name).same e.1

theorem mem_beside {names : List String} {patch : List (Value × Value)} {e : Value × Value} :
    e ∈ beside names patch ↔ e ∈ patch ∧ ∀ name ∈ names, e.1 ≠ .text name := by
  rw [beside, List.mem_filter]
  simp only [Bool.not_eq_true', List.any_eq_false, text_same_iff, ne_eq]

theorem names_layeredFields (fields : List (String × Value)) (patch : Value) :
    (layeredFields fields patch).map Prod.fst = fields.map Prod.fst := by
  rw [layeredFields, List.map_map]
  rfl

theorem record_merge {fields : List (String × Value)} {patch : List (Value × Value)}
    (names : (fields.map Prod.fst).Nodup)
    (distinct : patch.Pairwise fun a b => a.1.same b.1 = false) :
    (record fields).merge (.map patch) =
      .map ((layeredFields fields (.map patch)).map entry ++
        beside (fields.map Prod.fst) patch) := by
  rw [merge_record names distinct]
  simp only [layeredFields, beside, List.map_map, List.any_map, Function.comp_def, entry]

end Value

def Codec.Layers {β : Type} (codec : Codec β) (b : β) (patch : Value) (b' : β) : Prop :=
  codec.read? Value.reading ((codec.value b).merge patch) = some b'

namespace Codec.Layers

variable {β : Type} {codec : Codec β} {b b' : β} {patch : Value}

theorem read?_value (h : codec.Layers b patch b') :
    codec.read? Value.reading (codec.value b') = some b' :=
  codec.read?_of_represents (codec.regular_of_read? h) (codec.represents_value b')

theorem again_of_map (h : codec.Layers b patch b')
    (again : ∀ ws, patch = .map ws → codec.Layers b' (.map ws) b') : codec.Layers b' patch b' := by
  cases patch with
  | null =>
      rw [Layers, Value.merge_null]
      exact h.read?_value
  | map ws => exact again ws rfl
  | _ =>
      rw [Layers, Value.merge_of_flat (by simp) (by simp)] at h ⊢
      exact h

theorem again_of_flat (flat : codec.Flat) (h : codec.Layers b patch b') :
    codec.Layers b' patch b' :=
  Value.merge_again (flat b) (flat b') h.read?_value h

end Codec.Layers

theorem named_map_entry (fields : List (String × Value)) :
    Named Value.reading (fields.map Value.entry) fields := by
  rw [Named, List.forall₂_map_left_iff, List.forall₂_same]
  exact fun f _ => ⟨rfl, rfl⟩

theorem record?_of_named {names : List String} {entries : List (Value × Value)}
    {all : List (String × Value)} (named : Named Value.reading entries all) :
    Value.reading.record? names (.map entries) = known? names all := by
  have read : Value.reading.fields? names (.map entries) = some all := by
    refine Codec.mapM_eq_some_iff.2 (named.imp fun e f h => ?_)
    obtain ⟨key, v⟩ := e
    obtain ⟨name, w⟩ := f
    obtain ⟨text, rfl⟩ : Value.reading.text? key = some name ∧ w = v := h
    simp only [Value.reading] at text
    dsimp only
    split at text
    next bare => rw [← Option.some.inj text]
    · cases text
  rw [record?, read]
  rfl

namespace Recorded

variable {α : Type} [Recorded α] {c c' : α}

theorem names_layered (c : α) (patch : Value) :
    (Value.layeredFields (fields c) patch).map Prod.fst = (parts (α := α)).map Part.name := by
  rw [Value.names_layeredFields, names_fields]

theorem mem_layered (c : α) (patch : Value) {p : Part α} (member : p ∈ parts) :
    (p.name, (p.codec.value (p.get c)).merge (patch.member p.name)) ∈
      Value.layeredFields (fields c) patch :=
  List.mem_map_of_mem (List.mem_map_of_mem member)

theorem value_merge (c : α) {ws : List (Value × Value)}
    (keys : ws.Pairwise fun a b => a.1.same b.1 = false) :
    (value c).merge (.map ws) =
      .map ((Value.layeredFields (fields c) (.map ws)).map Value.entry ++
        Value.beside ((parts (α := α)).map Part.name) ws) := by
  rw [value_eq, ← names_fields c]
  exact Value.record_merge (nodup_fields c) keys

theorem record?_merge {ws : List (Value × Value)}
    (keys : ws.Pairwise fun a b => a.1.same b.1 = false)
    (h : (codec α).Layers c (.map ws) c') :
    Value.reading.record? ((parts (α := α)).map Part.name) ((value c').merge (.map ws)) =
      some (Value.layeredFields (fields c') (.map ws)) := by
  obtain ⟨_, record, -⟩ := read?_eq_some.1 (show read? _ _ = some c' from h)
  rw [codec_value, value_merge c keys] at record
  obtain ⟨all, named, known⟩ := exists_named_of_value rfl record
  obtain ⟨rest, rfl, others⟩ := exists_named_append named
  have fresh := fresh_of_known? (names_layered c _) known
  rw [value_merge c' keys, record?_of_named (List.rel_append (named_map_entry _) others), known?_eq_some,
    List.filter_append, List.filter_eq_self.2, List.filter_eq_nil_iff.2, List.append_nil,
    names_layered]
  · exact ⟨rfl, nodup⟩
  · exact fun f inside => mt List.contains_iff_mem.1 (fresh f inside)
  · intro f inside
    rw [List.contains_iff_mem, ← names_layered c' (.map ws)]
    exact List.mem_map_of_mem inside

theorem layers_again {patch : Value} (distinct : patch.Distinct)
    (each : ∀ p ∈ parts (α := α),
      p.codec.Layers (p.get c) (patch.member p.name) (p.get c') →
        p.codec.Layers (p.get c') (patch.member p.name) (p.get c'))
    (h : (codec α).Layers c patch c') : (codec α).Layers c' patch c' := by
  refine h.again_of_map fun ws same => ?_
  subst same
  refine read?_eq_some.2 ⟨_, record?_merge distinct.keys h, fun p member => ?_⟩
  have untagged : (Value.map ws).Untagged := by simp [Value.Untagged]
  rw [field, lookup_of_mem (names_layered c' _ ▸ nodup) (mem_layered c' _ member)]
  exact each p member (read?_merge distinct untagged h p member)

theorem layers_again_of_flat {patch : Value} (distinct : patch.Distinct)
    (flat : ∀ p ∈ parts (α := α), p.codec.Flat) (h : (codec α).Layers c patch c') :
    (codec α).Layers c' patch c' :=
  layers_again distinct (fun p member => .again_of_flat (flat p member)) h

end Recorded

end AnimatedCanvas
