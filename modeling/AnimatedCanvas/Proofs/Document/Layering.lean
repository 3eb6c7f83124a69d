import AnimatedCanvas.Document.Reading
import Mathlib.Data.List.Basic

namespace AnimatedCanvas

namespace Value

def member (v : Value) (name : String) : Value :=
  match v with
  | .map entries => (find? entries (.text name)).getD .null
  | _ => .null

def under (v : Value) (path : List String) : Value := path.foldl member v

theorem same_text_iff {k : Value} {name : String} : k.same (.text name) = true ↔ k = .text name := by
  cases k <;> simp [same]

theorem text_same_iff {k : Value} {name : String} :
    (Value.text name).same k = true ↔ k = .text name := by
  cases k <;> simp [same, @eq_comm _ name]

theorem find?_cons_self (name : String) (v : Value) (entries : List (Value × Value)) :
    find? ((.text name, v) :: entries) (.text name) = some v := by
  simp [find?, same]

theorem find?_cons_other {k v : Value} {name : String} {entries : List (Value × Value)}
    (other : k ≠ .text name) :
    find? ((k, v) :: entries) (.text name) = find? entries (.text name) := by
  have differs : k.same (.text name) = false := Bool.eq_false_iff.2 (mt same_text_iff.1 other)
  simp [find?, differs]

theorem mem_of_find? {name : String} {v : Value} {entries : List (Value × Value)}
    (h : find? entries (.text name) = some v) : (.text name, v) ∈ entries := by
  induction entries with
  | nil => cases h
  | cons e entries ih =>
      obtain ⟨k, w⟩ := e
      by_cases here : k = .text name
      · rw [here, find?_cons_self] at h
        rw [here, Option.some.inj h]
        exact List.mem_cons_self
      · rw [find?_cons_other here] at h
        exact List.mem_cons_of_mem _ (ih h)

theorem member_cons_self (name : String) (v : Value) (entries : List (Value × Value)) :
    (Value.map ((.text name, v) :: entries)).member name = v := by
  simp [member, find?_cons_self]

theorem member_cons_other {k v : Value} {name : String} {entries : List (Value × Value)}
    (other : k ≠ .text name) :
    (Value.map ((k, v) :: entries)).member name = (Value.map entries).member name := by
  simp [member, find?_cons_other other]

theorem member_of_fresh {key : Value} {name : String} {entries : List (Value × Value)}
    (fresh : ∀ e ∈ entries, key.same e.1 = false) (here : key = .text name) :
    (Value.map entries).member name = .null := by
  have absent : find? entries (.text name) = none := by
    refine Option.eq_none_iff_forall_ne_some.2 fun v found => ?_
    have clash := fresh _ (mem_of_find? found)
    rw [here, same_text_iff.2 rfl] at clash
    cases clash
  simp [member, absent]

theorem merge_null (base : Value) : base.merge .null = base := by
  rw [merge]

theorem merge_of_ne_null {base v : Value} (flat : ∀ entries, base ≠ .map entries) (h : v ≠ .null) :
    base.merge v = v := by
  cases v with
  | null => exact absurd rfl h
  | map patch =>
      cases base with
      | map entries => exact absurd rfl (flat entries)
      | _ => simp only [merge]
  | _ => rw [merge]

theorem find?_of_mem {name : String} {v : Value} {entries : List (Value × Value)}
    (distinct : entries.Pairwise fun a b => a.1.same b.1 = false)
    (member : (.text name, v) ∈ entries) : find? entries (.text name) = some v := by
  induction entries with
  | nil => cases member
  | cons e entries ih =>
      obtain ⟨fresh, distinct⟩ := List.pairwise_cons.1 distinct
      obtain rfl | member := List.mem_cons.1 member
      · exact find?_cons_self ..
      · have other : e.1 ≠ .text name := fun here => by
          have clash := fresh _ member
          rw [here, same_text_iff.2 rfl] at clash
          cases clash
        exact (find?_cons_other other).trans (ih distinct member)

def entry (f : String × Value) : Value × Value := (.text f.1, f.2)

theorem any_same_iff {fields : List (String × Value)} {key : Value} :
    ((fields.map entry).any fun e => e.1.same key) = true ↔
      ∃ name, key = .text name ∧ name ∈ fields.map Prod.fst := by
  simp only [List.any_eq_true, List.mem_map]
  constructor
  · rintro ⟨_, ⟨f, member, rfl⟩, same⟩
    exact ⟨f.1, text_same_iff.1 same, f, member, rfl⟩
  · rintro ⟨_, rfl, f, member, rfl⟩
    exact ⟨_, ⟨f, member, rfl⟩, text_same_iff.2 rfl⟩

theorem pairwise_map_entry {fields : List (String × Value)} (names : (fields.map Prod.fst).Nodup) :
    (fields.map entry).Pairwise fun a b => a.1.same b.1 = false := by
  rw [List.pairwise_map]
  refine (List.pairwise_map.1 names).imp fun {f g} other => Bool.eq_false_iff.2 fun same => ?_
  exact other (text.inj (text_same_iff.1 same)).symm

theorem put_field {name : String} {v : Value} {fields : List (String × Value)}
    {more : List (Value × Value)} (known : name ∈ fields.map Prod.fst)
    (apart : ∀ e ∈ more, e.1.same (.text name) = false) :
    put (fields.map entry ++ more) (.text name) v =
      (fields.map fun f => (f.1, if f.1 = name then v else f.2)).map entry ++ more := by
  have there : (fields.map entry ++ more).any (fun e => e.1.same (.text name)) = true := by
    rw [List.any_append, any_same_iff.2 ⟨name, rfl, known⟩, Bool.true_or]
  unfold put
  rw [if_pos there, List.map_append, List.map_map, List.map_map]
  congr 1
  · refine List.map_congr_left fun f _ => ?_
    by_cases here : f.1 = name
    · simp [entry, here, same]
    · simp [entry, here, same]
  · conv_rhs => rw [← List.map_id more]
    refine List.map_congr_left fun e member => ?_
    simp [apart e member]

theorem put_new {key v : Value} {entries : List (Value × Value)}
    (apart : entries.any (fun e => e.1.same key) = false) :
    find? entries key = none ∧ put entries key v = entries ++ [(key, v)] := by
  refine ⟨?_, if_neg (by rw [apart]; exact Bool.false_ne_true)⟩
  rw [find?, Option.map_eq_none_iff, List.find?_eq_none]
  exact List.any_eq_false.1 apart

theorem find?_append_of_some {key v : Value} {entries : List (Value × Value)}
    (found : find? entries key = some v) (more : List (Value × Value)) :
    find? (entries ++ more) key = some v := by
  obtain ⟨e, first, rfl⟩ := Option.map_eq_some_iff.1 found
  rw [find?, List.find?_append, first]
  rfl

section

variable {fields : List (String × Value)} (patch : List (Value × Value))

theorem layered_cons_known (names : (fields.map Prod.fst).Nodup) {f : String × Value}
    (inside : f ∈ fields) (w : Value) (fresh : ∀ e ∈ patch, (Value.text f.1).same e.1 = false) :
    ((fields.map fun g => (g.1, if g.1 = f.1 then f.2.merge w else g.2)).map fun g =>
        entry (g.1, g.2.merge ((Value.map patch).member g.1))) =
      fields.map fun g => entry (g.1, g.2.merge ((Value.map ((.text f.1, w) :: patch)).member g.1)) := by
  have found (g : String × Value) (member : g ∈ fields) :
      find? (fields.map entry) (.text g.1) = some g.2 :=
    find?_of_mem (pairwise_map_entry names) (List.mem_map_of_mem member)
  rw [List.map_map]
  refine List.map_congr_left fun g member => congrArg (fun v => entry (g.1, v)) ?_
  by_cases here : g.1 = f.1
  · have same : g.2 = f.2 :=
      Option.some.inj ((found g member).symm.trans (here ▸ found f inside))
    simp only [here, if_true, member_cons_self, member_of_fresh fresh rfl, merge_null, same]
  · have other : Value.text f.1 ≠ .text g.1 := fun same => here (text.inj same).symm
    simp only [if_neg here, member_cons_other other]

theorem layered_cons_new {key : Value} (w : Value) (unnamed : ∀ f ∈ fields, key ≠ .text f.1) :
    (fields.map fun f => entry (f.1, f.2.merge ((Value.map ((key, w) :: patch)).member f.1))) =
      fields.map fun f => entry (f.1, f.2.merge ((Value.map patch).member f.1)) :=
  List.map_congr_left fun f member => by rw [member_cons_other (unnamed f member)]

end

/-- A record keeps its fields in their places, each with what the patch has for it layered over it.
What else is in the patch comes after them. -/
theorem mergeEntries_record {patch : List (Value × Value)}
    (distinct : patch.Pairwise fun a b => a.1.same b.1 = false) :
    ∀ {fields : List (String × Value)} {more : List (Value × Value)},
      (fields.map Prod.fst).Nodup → (∀ a ∈ more, ∀ b ∈ patch, a.1.same b.1 = false) →
      mergeEntries (fields.map entry ++ more) patch =
        (fields.map fun f => entry (f.1, f.2.merge ((Value.map patch).member f.1))) ++ more ++
          patch.filter fun e => !(fields.map entry).any fun f => f.1.same e.1 := by
  induction patch with
  | nil =>
      intro fields more _ _
      have same : (fields.map fun f => entry (f.1, f.2.merge ((Value.map []).member f.1))) =
          fields.map entry :=
        List.map_congr_left fun f _ => congrArg (fun v => entry (f.1, v)) (merge_null f.2)
      rw [mergeEntries, same, List.filter_nil, List.append_nil]
  | cons e patch ih =>
      intro fields more names apart
      obtain ⟨key, w⟩ := e
      obtain ⟨fresh, others⟩ := List.pairwise_cons.1 distinct
      have apart' : ∀ a ∈ more, ∀ b ∈ patch, a.1.same b.1 = false :=
        fun a inside b member => apart a inside b (List.mem_cons_of_mem _ member)
      have apartKey : ∀ a ∈ more, a.1.same key = false :=
        fun a inside => apart a inside (key, w) List.mem_cons_self
      rw [mergeEntries, List.filter_cons]
      by_cases known : ((fields.map entry).any fun f => f.1.same key) = true
      · obtain ⟨name, rfl, field⟩ := any_same_iff.1 known
        obtain ⟨f, inside, rfl⟩ := List.mem_map.1 field
        have found : find? (fields.map entry) (.text f.1) = some f.2 :=
          find?_of_mem (pairwise_map_entry names) (List.mem_map_of_mem inside)
        rw [find?_append_of_some found, known]
        dsimp only
        rw [put_field field apartKey, ih others (by simpa [Function.comp_def] using names) apart',
          layered_cons_known patch names inside w fresh]
        simp [entry, Function.comp_def]
      · rw [Bool.not_eq_true] at known
        have new : (fields.map entry ++ more).any (fun e => e.1.same key) = false := by
          rw [List.any_append, known, Bool.false_or]
          exact List.any_eq_false.2 fun a inside => by simp [apartKey a inside]
        obtain ⟨none, put⟩ := put_new (v := w) new
        have unnamed : ∀ f ∈ fields, key ≠ .text f.1 := by
          rintro f member rfl
          rw [any_same_iff.2 ⟨f.1, rfl, List.mem_map_of_mem member⟩] at known
          cases known
        -- The new entry joins those behind the record, which the rest of the patch does not name.
        have apartMore : ∀ a ∈ more ++ [(key, w)], ∀ b ∈ patch, a.1.same b.1 = false :=
          List.forall_mem_append.2 ⟨apart', List.forall_mem_singleton.2 fresh⟩
        rw [none, known]
        dsimp only
        rw [put, List.append_assoc, ih others names apartMore, layered_cons_new patch w unnamed]
        simp

section

variable {fields : List (String × Value)} {patch : List (Value × Value)}

theorem merge_record (names : (fields.map Prod.fst).Nodup)
    (distinct : patch.Pairwise fun a b => a.1.same b.1 = false) :
    (record fields).merge (.map patch) =
      .map ((fields.map fun f => entry (f.1, f.2.merge ((Value.map patch).member f.1))) ++
        patch.filter fun e => !(fields.map entry).any fun f => f.1.same e.1) := by
  have merged : mergeEntries (fields.map entry ++ []) patch = _ :=
    mergeEntries_record distinct names (by simp)
  rw [List.append_nil, List.append_nil] at merged
  exact congrArg map merged

theorem member_merge_record (names : (fields.map Prod.fst).Nodup)
    (distinct : patch.Pairwise fun a b => a.1.same b.1 = false) {f : String × Value}
    (field : f ∈ fields) : ∃ entries, (record fields).merge (.map patch) = .map entries ∧
      find? entries (.text f.1) = some (f.2.merge ((Value.map patch).member f.1)) := by
  refine ⟨_, merge_record names distinct, find?_append_of_some ?_ _⟩
  let layered := fields.map fun f => (f.1, f.2.merge ((Value.map patch).member f.1))
  have same : layered.map Prod.fst = fields.map Prod.fst := by
    rw [List.map_map]
    rfl
  have found := find?_of_mem (pairwise_map_entry (same ▸ names))
    (List.mem_map_of_mem (List.mem_map_of_mem field))
  rwa [List.map_map] at found

end

inductive Distinct : Value → Prop where
  | leaf {v : Value} (flat : ∀ entries, v ≠ .map entries) : Distinct v
  | map {entries : List (Value × Value)}
    (keys : entries.Pairwise fun a b => a.1.same b.1 = false)
    (parts : ∀ e ∈ entries, Distinct e.2) : Distinct (.map entries)

theorem Distinct.keys {entries : List (Value × Value)} (h : Distinct (.map entries)) :
    entries.Pairwise fun a b => a.1.same b.1 = false := by
  cases h with
  | leaf flat => exact absurd rfl (flat entries)
  | map keys _ => exact keys

theorem Distinct.member {v : Value} (h : Distinct v) (name : String) :
    Distinct (v.member name) := by
  have null : Distinct .null := .leaf (by simp)
  cases h with
  | leaf flat =>
      cases v with
      | map entries => exact absurd rfl (flat entries)
      | _ => exact null
  | @map entries keys parts =>
      unfold Value.member
      dsimp only
      cases found : find? entries (.text name) with
      | none => exact null
      | some w => exact parts _ (mem_of_find? found)

end Value

namespace Yaml

def enter (seen : Option (List (Value × Value))) (e : Value × Value) :
    Option (List (Value × Value)) :=
  seen.bind fun seen => if seen.any (·.1.same e.1) then none else some (seen ++ [e])

theorem mapValue?_eq (entries : List (Value × Value)) :
    Tree.mapValue? entries = (entries.foldl enter (some [])).map .map := rfl

theorem foldl_enter_none (entries : List (Value × Value)) : entries.foldl enter none = none := by
  induction entries with
  | nil => rfl
  | cons e entries ih => exact ih

theorem pairwise_of_foldl_enter {entries : List (Value × Value)} :
    ∀ {seen all : List (Value × Value)}, entries.foldl enter (some seen) = some all →
      all = seen ++ entries ∧ (∀ a ∈ seen, ∀ b ∈ entries, a.1.same b.1 = false) ∧
        entries.Pairwise fun a b => a.1.same b.1 = false := by
  induction entries with
  | nil =>
      intro seen all h
      cases h
      simp
  | cons e entries ih =>
      intro seen all h
      rw [List.foldl_cons, enter, Option.bind_some] at h
      split at h
      · rw [foldl_enter_none] at h
        cases h
      next fresh =>
        obtain ⟨rfl, apart, distinct⟩ := ih h
        simp only [List.any_eq_true, not_exists, not_and, Bool.not_eq_true] at fresh
        refine ⟨by simp, fun a before => ?_, List.pairwise_cons.2 ⟨?_, distinct⟩⟩
        · exact List.forall_mem_cons.2 ⟨fresh a before, apart a (List.mem_append_left _ before)⟩
        · exact apart e (List.mem_append_right _ List.mem_cons_self)

theorem pairwise_of_mapValue? {entries : List (Value × Value)} {v : Value}
    (h : Tree.mapValue? entries = some v) :
    v = .map entries ∧ entries.Pairwise fun a b => a.1.same b.1 = false := by
  rw [mapValue?_eq] at h
  obtain ⟨all, folded, rfl⟩ := Option.map_eq_some_iff.1 h
  obtain ⟨rfl, -, distinct⟩ := pairwise_of_foldl_enter folded
  exact ⟨rfl, distinct⟩

end Yaml
end AnimatedCanvas
