import AnimatedCanvas.Proofs.Config.Overrides

namespace AnimatedCanvas

open Reading
open Yaml (Tree Node ScalarStyle bare_of_named?)

section

variable {ν β : Type} {names : List String}

theorem exists_of_lookup {fields : List (String × β)} {name : String} {v : β}
    (h : fields.lookup name = some v) : (name, v) ∈ fields := by
  induction fields with
  | nil => cases h
  | cons f fields ih =>
      rw [List.lookup_cons] at h
      split at h
      next same =>
        cases h
        rw [eq_of_beq same]
        exact List.mem_cons_self
      · exact List.mem_cons_of_mem _ (ih h)

def Named (r : Reading ν) (entries : List (ν × ν)) (fields : List (String × ν)) : Prop :=
  List.Forall₂ (fun e f => r.text? e.1 = some f.1 ∧ f.2 = e.2) entries fields

theorem exists_named_of_tree {t : Tree} {v : Node} {tag : Option String}
    {entries : List (Node × Node)} {fields : List (String × Node)}
    (node : t.follow? v = some (.map tag entries))
    (h : t.reading.record? names v = some fields) :
    ∃ all, Named t.reading entries all ∧ known? names all = some fields := by
  obtain ⟨all, read, known⟩ := Option.bind_eq_some_iff.1 h
  simp only [Tree.reading, node] at read
  refine ⟨all, (Codec.mapM_eq_some_iff.1 read).imp fun e f h => ?_, known⟩
  obtain ⟨k, followed, h⟩ := Option.bind_eq_some_iff.1 h
  obtain ⟨name, text, h⟩ := Option.bind_eq_some_iff.1 h
  cases h
  exact ⟨Option.bind_eq_some_iff.2 ⟨k, followed, text⟩, rfl⟩

theorem exists_named_of_value {u : Value} {entries : List (Value × Value)}
    {fields : List (String × Value)} (bare : u.bare = .map entries)
    (h : Value.reading.record? names u = some fields) :
    ∃ all, Named Value.reading entries all ∧ known? names all = some fields := by
  obtain ⟨all, read, known⟩ := Option.bind_eq_some_iff.1 h
  simp only [Value.reading, bare] at read
  refine ⟨all, (Codec.mapM_eq_some_iff.1 read).imp fun e f h => ?_, known⟩
  split at h
  next name text =>
    cases h
    exact ⟨by simp [Value.reading, text], rfl⟩
  · cases h

end

theorem exists_named_append {fields : List (String × Value)} {more : List (Value × Value)} :
    ∀ {all : List (String × Value)}, Named Value.reading (fields.map Value.entry ++ more) all →
      ∃ rest, all = fields ++ rest ∧ Named Value.reading more rest := by
  induction fields with
  | nil => exact fun named => ⟨_, rfl, named⟩
  | cons f fields ih =>
      intro all named
      cases named with
      | @cons _ g _ _ head tail =>
          obtain ⟨rest, rfl, named⟩ := ih tail
          have same : g = f := Prod.ext (Option.some.inj head.1).symm head.2
          exact ⟨rest, by rw [same, List.cons_append], named⟩

theorem fresh_of_known? {names : List String} {first rest fields : List (String × Value)}
    (same : first.map Prod.fst = names) (known : known? names (first ++ rest) = some fields) :
    ∀ f ∈ rest, f.1 ∉ names := by
  intro f inside member
  obtain ⟨rfl, distinct⟩ := known?_eq_some.1 known
  rw [List.filter_append, List.map_append] at distinct
  obtain ⟨g, before, here⟩ := List.mem_map.1 (same ▸ member)
  refine (List.nodup_append.1 distinct).2.2 f.1 ?_ f.1 ?_ rfl
  · rw [← here]
    exact List.mem_map_of_mem (List.mem_filter.2 ⟨before, by simpa [here] using member⟩)
  · exact List.mem_map_of_mem (List.mem_filter.2 ⟨inside, by simpa using member⟩)

def Valued (t : Tree) : List (Node × Node) → List (Value × Value) → Prop :=
  List.Forall₂ fun e f => t.Denotes e.1 f.1 ∧ t.Denotes e.2 f.2

namespace Valued

variable {t : Tree} {entries : List (Node × Node)} {ws : List (Value × Value)}
  {names : List String} {all fields : List (String × Node)} {all' fields' : List (String × Value)}

structure Agree (t : Tree) (f : String × Node) (e : Value × Value) : Prop where
  name : ∀ name, Value.reading.text? e.1 = some name → f.1 = name
  value : t.Denotes f.2 e.2

theorem agree (valued : Valued t entries ws) (named : Named t.reading entries all) :
    List.Forall₂ (Agree t) all ws :=
  forall₂_trans named.flip valued fun _ _ _ key values =>
    ⟨fun _ text => values.1.eq_of_text? key.1 text, key.2 ▸ values.2⟩

theorem lookup (valued : Valued t entries ws) (named : Named t.reading entries all)
    (named' : Named Value.reading ws all') (known : known? names all = some fields)
    (known' : known? names all' = some fields') (name : String) :
    Option.Rel t.Denotes (fields.lookup name) (fields'.lookup name) := by
  have same : List.Forall₂ (fun f g => f.1 = g.1 ∧ t.Denotes f.2 g.2) all all' :=
    forall₂_trans (valued.agree named) named' fun _ _ _ agree key =>
      ⟨agree.name _ key.1, key.2 ▸ agree.value⟩
  rw [(known?_eq_some.1 known).1, (known?_eq_some.1 known').1]
  refine lookup_of_forall₂ (List.rel_filter (fun f g related => ?_) same) name
  dsimp only
  rw [related.1]

theorem member_eq_null (valued : Valued t entries ws) (named : Named t.reading entries all)
    (known : known? names all = some fields) {name : String} (member : name ∈ names)
    (missing : fields.lookup name = none) : (Value.map ws).member name = .null := by
  obtain ⟨rfl, unique⟩ := known?_eq_some.1 known
  have absent : Value.find? ws (.text name) = none := by
    refine Option.eq_none_iff_forall_ne_some.2 fun w found => ?_
    obtain ⟨⟨_, v⟩, inside, related⟩ :=
      exists_mem_of_forall₂ (valued.agree named).flip (Value.mem_of_find? found)
    obtain rfl := related.name name rfl
    have kept : (_, v) ∈ all.filter fun f => names.contains f.1 :=
      List.mem_filter.2 ⟨inside, List.contains_iff_mem.2 member⟩
    rw [lookup_of_mem unique kept] at missing
    cases missing
  rw [Value.member, absent, Option.getD_none]

theorem lookup_over (valued : Valued t entries ws) (named : Named t.reading entries all)
    {base : List (String × Value)} (distinct : (base.map Prod.fst).Nodup)
    (keys : ws.Pairwise fun a b => a.1.same b.1 = false)
    (known : known? (base.map Prod.fst) all = some fields)
    (record : Value.reading.record? (base.map Prod.fst)
      ((Value.record base).merge (.map ws)) = some fields')
    {name : String} (member : name ∈ base.map Prod.fst) :
    (fields.lookup name = none ∧ (Value.map ws).member name = .null) ∨
      ∃ v, fields.lookup name = some v ∧ t.Denotes v ((Value.map ws).member name) := by
  rw [Value.merge_record distinct keys] at record
  obtain ⟨all', named', known'⟩ := exists_named_of_value rfl record
  rw [show (base.map fun f => Value.entry (f.1, f.2.merge ((Value.map ws).member f.1))) =
    (base.map fun f => (f.1, f.2.merge ((Value.map ws).member f.1))).map Value.entry by
      rw [List.map_map]; rfl] at named'
  obtain ⟨rest, rfl, others⟩ := exists_named_append named'
  have fresh := fresh_of_known? (by simp [Function.comp_def]) known'
  cases looked : fields.lookup name with
  | none => exact .inl ⟨rfl, member_eq_null valued named known member looked⟩
  | some v =>
      refine .inr ⟨v, rfl, ?_⟩
      obtain ⟨rfl, -⟩ := known?_eq_some.1 known
      obtain ⟨inside, -⟩ := List.mem_filter.1 (exists_of_lookup looked)
      obtain ⟨⟨key, w⟩, there, related⟩ := exists_mem_of_forall₂ (valued.agree named) inside
      -- The node's key is the name: any other key would have named it a second time.
      have here : key = .text name := by
        by_cases old : ((base.map Value.entry).any fun f => f.1.same key) = true
        · obtain ⟨name', rfl, -⟩ := Value.any_same_iff.1 old
          exact congrArg Value.text (related.name name' rfl).symm
        · have new : (key, w) ∈
              ws.filter fun e => !(base.map Value.entry).any fun f => f.1.same e.1 :=
            List.mem_filter.2 ⟨there, by rw [Bool.eq_false_iff.2 old]; rfl⟩
          obtain ⟨f, inside, text, -⟩ := exists_mem_of_forall₂ others new
          exact absurd (related.name _ text ▸ member) (fresh f inside)
      rw [Value.member, Value.find?_of_mem keys (here ▸ there)]
      exact related.value

end Valued

/-- What the two ways make of a part whose default is `initial`: neither meets it, or both read it
from the same place, the second one perhaps with what stands there layered over the default. -/
inductive Codec.Loaded {β : Type} (codec : Codec β) (t : Tree) (initial x y : β) : Prop where
  | missing (direct : x = initial) (layered : y = initial)
  | given {v : Node} {w u : Value} (denotes : t.Denotes v w)
    (direct : codec.read? t.reading v = some x) (layered : codec.read? Value.reading u = some y)
    (source : u = w ∨ u = (codec.value initial).merge w)

namespace Recorded

variable {α : Type} [Recorded α] {t : Tree} {c c' : α}

theorem get_of_field {ν : Type} {r : Reading ν} {fields : List (String × ν)} {p : Part α}
    (read : field fields p.name (p.codec.read? r) (p.get initial) = some (p.get c)) :
    (∀ v, fields.lookup p.name = some v → p.codec.read? r v = some (p.get c)) ∧
      (fields.lookup p.name = none → p.get c = p.get initial) := by
  unfold field at read
  split at read
  next none => exact ⟨by simp [none], fun _ => (Option.some.inj read).symm⟩
  next v some =>
    refine ⟨fun w same => ?_, by simp [some]⟩
    cases some.symm.trans same
    exact read

theorem parts_eq_initial {ν : Type} {r : Reading ν} {v : ν} (read : read? r v = some c)
    (empty : ∀ names, r.fields? names v = some []) : ∀ p ∈ parts, p.get c = p.get initial := by
  obtain ⟨fields, record, each⟩ := read?_eq_some.1 read
  intro p member
  rw [record?, empty] at record
  cases record
  exact (get_of_field (each p member)).2 rfl

section

variable {v : Node} {tag : Option String} {entries : List (Node × Node)}
  {ws : List (Value × Value)}

theorem loaded_parts_of_replaced (node : t.follow? v = some (.map tag entries))
    (valued : Valued t entries ws) (direct : read? t.reading v = some c) {u : Value}
    (layered : read? Value.reading u = some c') (bare : u.bare = .map ws) :
    ∀ p ∈ parts, p.codec.Loaded t (p.get initial) (p.get c) (p.get c') := by
  obtain ⟨fields, record, each⟩ := read?_eq_some.1 direct
  obtain ⟨fields', record', each'⟩ := read?_eq_some.1 layered
  obtain ⟨all, named, known⟩ := exists_named_of_tree node record
  obtain ⟨all', named', known'⟩ := exists_named_of_value bare record'
  intro p member
  obtain ⟨given, absent⟩ := get_of_field (each p member)
  obtain ⟨given', absent'⟩ := get_of_field (each' p member)
  have related := valued.lookup named named' known known' p.name
  generalize first : fields.lookup p.name = found at related
  generalize second : fields'.lookup p.name = found' at related
  cases related with
  | none => exact .missing (absent first) (absent' second)
  | some denotes => exact .given denotes (given _ first) (given' _ second) (.inl rfl)

theorem loaded_parts_of_layered (node : t.follow? v = some (.map tag entries))
    (valued : Valued t entries ws) (direct : read? t.reading v = some c)
    (distinct : (Value.map ws).Distinct)
    (layered : read? Value.reading ((value (initial : α)).merge (.map ws)) = some c') :
    ∀ p ∈ parts, p.codec.Loaded t (p.get initial) (p.get c) (p.get c') := by
  have untagged : (Value.map ws).Untagged := fun _ _ => (nomatch ·)
  obtain ⟨fields, record, each⟩ := read?_eq_some.1 direct
  obtain ⟨fields', record', -⟩ := read?_eq_some.1 layered
  obtain ⟨all, named, known⟩ := exists_named_of_tree node record
  rw [value_eq, ← names_fields (initial : α)] at record'
  rw [← names_fields (initial : α)] at known
  intro p member
  obtain ⟨given, absent⟩ := get_of_field (each p member)
  have part := read?_merge distinct untagged layered p member
  obtain ⟨none, null⟩ | ⟨v, some, denotes⟩ := valued.lookup_over named
    (nodup_fields _) distinct.keys known record'
    (names_fields (initial : α) ▸ List.mem_map_of_mem member)
  · exact .missing (absent none) (get_eq_of_member_eq_null distinct untagged layered
      regular_initial member null)
  · exact .given denotes (given v some) part (.inr rfl)

theorem loaded_parts_of_scalar {style : ScalarStyle} {s : String} {w u : Value}
    (denotes : t.Denotes v w) (node : t.follow? v = some (.scalar tag style s))
    (direct : read? t.reading v = some c) (layered : read? Value.reading u = some c')
    (source : u = w ∨ u = (value (initial : α)).merge w) :
    ∀ p ∈ parts, p.codec.Loaded t (p.get initial) (p.get c) (p.get c') := by
  -- A record is read from a scalar only where one was left out, and then it has no fields.
  have empty (names : List String) : t.reading.fields? names v = some [] := by
    obtain ⟨fields, record, -⟩ := read?_eq_some.1 direct
    obtain ⟨all, read, -⟩ := Option.bind_eq_some_iff.1 record
    simp only [Tree.reading, node, Option.bind_eq_bind, Option.bind_some] at read ⊢
    split at read
    next absent => rw [if_pos absent]
    · cases read
  have missing (replaced : u = w) : ∀ p ∈ parts, p.get c' = p.get (initial : α) := by
    have kind := denotes.kind node
    rw [← replaced] at kind
    refine parts_eq_initial layered fun names => ?_
    obtain ⟨fields, record, -⟩ := read?_eq_some.1 layered
    obtain ⟨all, read, -⟩ := Option.bind_eq_some_iff.1 record
    simp only [Value.reading] at read ⊢
    split at read
    next bare =>
      rw [bare] at kind
      cases kind
    · rfl
    · cases read
  have kept : ∀ p ∈ parts, p.get c' = p.get (initial : α) := by
    obtain replaced | merged := source
    · exact missing replaced
    · cases w with
      | null =>
          rw [Value.merge_null] at merged
          rw [merged, read?_of_represents regular_initial (represents_value _)] at layered
          exact fun p _ => congrArg p.get (Option.some.inj layered).symm
      | map entries =>
          have kind := denotes.kind node
          cases kind
      | _ => exact missing (merged.trans (by rw [Value.merge]))
  exact fun p member => .missing (parts_eq_initial direct empty p member) (kept p member)

end

theorem loaded_parts (loaded : (codec α).Loaded t initial c c') :
    ∀ p ∈ parts, p.codec.Loaded t (p.get initial) (p.get c) (p.get c') := by
  cases loaded with
  | missing direct layered =>
      subst direct layered
      exact fun p _ => .missing rfl rfl
  | @given v w u denotes direct layered source =>
      have direct : read? t.reading v = some c := direct
      have layered : read? Value.reading u = some c' := layered
      have source : u = w ∨ u = (value (initial : α)).merge w := source
      cases denotes.stands with
      | list node =>
          obtain ⟨fields, record, -⟩ := read?_eq_some.1 direct
          simp [record?, Tree.reading, node, Node.isAbsent] at record
      | @map tag entries ws node parts _ named =>
          obtain rfl | rfl := source
          · exact loaded_parts_of_replaced node parts direct layered (bare_of_named? named)
          · cases w with
            | map ws' =>
                obtain rfl : ws' = ws := Value.map.inj (bare_of_named? named)
                exact loaded_parts_of_layered node parts direct denotes.distinct layered
            | null => cases bare_of_named? named
            | _ =>
                rw [Value.merge] at layered
                exact loaded_parts_of_replaced node parts direct layered (bare_of_named? named)
      | @scalar tag style s node =>
          exact loaded_parts_of_scalar denotes node direct layered source

end Recorded
end AnimatedCanvas
