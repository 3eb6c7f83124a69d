import AnimatedCanvas.Document.Reading
import Mathlib.Data.List.Forall2

namespace AnimatedCanvas

variable {ν : Type}

theorem exists_forall₂ {α β : Type*} {R : α → β → Prop} {xs : List α}
    (each : ∀ x ∈ xs, ∃ y, R x y) : ∃ ys, List.Forall₂ R xs ys := by
  induction xs with
  | nil => exact ⟨[], .nil⟩
  | cons x xs ih =>
      obtain ⟨⟨y, head⟩, others⟩ := List.forall_mem_cons.1 each
      obtain ⟨ys, tail⟩ := ih others
      exact ⟨y :: ys, .cons head tail⟩

theorem exists_mem_of_forall₂ {α β : Type*} {R : α → β → Prop} {xs : List α} {ys : List β} {x : α}
    (h : List.Forall₂ R xs ys) (member : x ∈ xs) : ∃ y ∈ ys, R x y := by
  induction h with
  | nil => cases member
  | @cons a b as bs head _ ih =>
      obtain rfl | member := List.mem_cons.1 member
      · exact ⟨b, List.mem_cons_self, head⟩
      · obtain ⟨y, inside, related⟩ := ih member
        exact ⟨y, List.mem_cons_of_mem _ inside, related⟩

theorem forall₂_trans {α β γ : Type} {R : α → β → Prop} {S : β → γ → Prop} {T : α → γ → Prop}
    {xs : List α} {ys : List β} {zs : List γ} (first : List.Forall₂ R xs ys)
    (second : List.Forall₂ S ys zs) (both : ∀ x y z, R x y → S y z → T x z) :
    List.Forall₂ T xs zs := by
  induction first generalizing zs with
  | nil =>
      cases second
      exact .nil
  | cons head _ ih =>
      cases second with
      | cons head' tail => exact .cons (both _ _ _ head head') (ih tail)

theorem eq_of_forall₂ {α β : Type} {R : α → β → Prop} {xs : List α} {ys zs : List β}
    (first : List.Forall₂ (fun x y => ∀ z, R x z → y = z) xs ys) (second : List.Forall₂ R xs zs) :
    ys = zs := by
  have same : List.Forall₂ Eq ys zs :=
    forall₂_trans first.flip second fun _ _ z equal related => equal z related
  exact List.forall₂_eq_eq_eq ▸ same

structure NamedEntry (ν : Type) where
  name : String
  key : ν
  node : ν

mutual

def Represents (r : Reading ν) : Value → ν → Prop
  | .number (.natural n), v => r.count? v = some n
  | .number (.real x), v =>
    r.real? v = some x ∧ ∃ n, r.value? v = some (.number n) ∧ n.toFloat = x
  | .flag b, v => r.flag? v = some b
  | .text s, v => r.text? v = some s ∧ r.word? v = some s ∧ r.value? v = some (.text s)
  | .list items, v => ∃ nodes, r.items? v = some nodes ∧ RepresentsItems r items nodes
  | .map fields, v =>
    ∃ entries : List (NamedEntry ν),
      (∀ names, r.fields? names v = some (entries.map fun e => (e.name, e.node))) ∧
      r.collection? v = some (.map (entries.map fun e => (e.key, e.node))) ∧
      RepresentsFields r fields entries
  | .null, _ => False
  | .number (.negative _), _ => False
  | .tagged _ _, _ => False

def RepresentsItems (r : Reading ν) : List Value → List ν → Prop
  | [], nodes => nodes = []
  | w :: items, nodes =>
    ∃ v rest, nodes = v :: rest ∧ Represents r w v ∧ RepresentsItems r items rest

def RepresentsFields (r : Reading ν) : List (Value × Value) → List (NamedEntry ν) → Prop
  | [], entries => entries = []
  | (k, w) :: fields, entries =>
    ∃ e rest, entries = e :: rest ∧ k = .text e.name ∧ r.value? e.key = some (.text e.name) ∧
      Represents r w e.node ∧ RepresentsFields r fields rest

end

@[simp]
theorem represents_count {r : Reading ν} {n : Nat} {v : ν} :
    Represents r (.count n) v ↔ r.count? v = some n := by
  rw [Value.count, Represents]

@[simp]
theorem represents_real {r : Reading ν} {x : Float} {v : ν} :
    Represents r (.real x) v ↔
      r.real? v = some x ∧ ∃ n, r.value? v = some (.number n) ∧ n.toFloat = x := by
  rw [Value.real, Represents]

@[simp]
theorem represents_flag {r : Reading ν} {b : Bool} {v : ν} :
    Represents r (.flag b) v ↔ r.flag? v = some b := by
  rw [Represents]

@[simp]
theorem represents_text {r : Reading ν} {s : String} {v : ν} :
    Represents r (.text s) v ↔
      r.text? v = some s ∧ r.word? v = some s ∧ r.value? v = some (.text s) := by
  rw [Represents]

theorem representsItems_iff {r : Reading ν} {items : List Value} {nodes : List ν} :
    RepresentsItems r items nodes ↔ List.Forall₂ (Represents r) items nodes := by
  induction items generalizing nodes with
  | nil => simp [RepresentsItems]
  | cons w items ih => cases nodes <;> simp [RepresentsItems, ih]

theorem represents_list {r : Reading ν} {items : List Value} {v : ν} :
    Represents r (.list items) v ↔
      ∃ nodes, r.items? v = some nodes ∧ List.Forall₂ (Represents r) items nodes := by
  simp only [Represents, representsItems_iff]

structure NamedEntry.Represents (r : Reading ν) (f : String × Value) (e : NamedEntry ν) : Prop where
  name : e.name = f.1
  key : r.value? e.key = some (.text f.1)
  node : AnimatedCanvas.Represents r f.2 e.node

theorem representsFields_iff {r : Reading ν} {fields : List (String × Value)}
    {entries : List (NamedEntry ν)} :
    RepresentsFields r (fields.map fun (k, v) => (.text k, v)) entries ↔
      List.Forall₂ (NamedEntry.Represents r) fields entries := by
  induction fields generalizing entries with
  | nil => simp [RepresentsFields]
  | cons f fields ih =>
      obtain ⟨name, w⟩ := f
      cases entries with
      | nil => simp [RepresentsFields]
      | cons e rest =>
          simp only [List.map_cons, RepresentsFields, List.cons.injEq, Value.text.injEq,
            List.forall₂_cons, ih]
          constructor
          · rintro ⟨e, rest, ⟨rfl, rfl⟩, rfl, key, node, fields⟩
            exact ⟨⟨rfl, key, node⟩, fields⟩
          · rintro ⟨⟨rfl, key, node⟩, fields⟩
            exact ⟨e, rest, ⟨rfl, rfl⟩, rfl, key, node, fields⟩

theorem represents_record {r : Reading ν} {fields : List (String × Value)} {v : ν} :
    Represents r (.record fields) v ↔
      ∃ entries : List (NamedEntry ν),
        (∀ names, r.fields? names v = some (entries.map fun e => (e.name, e.node))) ∧
        r.collection? v = some (.map (entries.map fun e => (e.key, e.node))) ∧
        List.Forall₂ (NamedEntry.Represents r) fields entries := by
  simp only [Value.record, Represents, representsFields_iff]

namespace Reading

theorem known?_eq_some {names : List String} {all fields : List (String × ν)} :
    known? names all = some fields ↔
      fields = (all.filter fun f => names.contains f.1) ∧ (fields.map Prod.fst).Nodup := by
  unfold known?
  dsimp only
  split
  next distinct =>
    refine ⟨fun h => ?_, fun h => congrArg some h.1.symm⟩
    cases h
    exact ⟨rfl, distinct⟩
  next clash =>
    refine ⟨(nomatch ·), fun h => absurd h.2 ?_⟩
    rw [h.1]
    exact clash

end Reading

theorem lookup_of_mem {β : Type} {name : String} {v : β} {fields : List (String × β)}
    (distinct : (fields.map Prod.fst).Nodup) (member : (name, v) ∈ fields) :
    fields.lookup name = some v := by
  induction fields with
  | nil => cases member
  | cons f fields ih =>
      obtain ⟨fresh, distinct⟩ := List.nodup_cons.1 distinct
      obtain rfl | member := List.mem_cons.1 member
      · simp
      · have other : name ≠ f.1 := fun same => fresh (same ▸ List.mem_map_of_mem member)
        rw [List.lookup_cons, beq_false_of_ne other]
        exact ih distinct member

theorem lookup_of_forall₂ {β γ : Type} {R : β → γ → Prop} {fields : List (String × β)}
    {fields' : List (String × γ)}
    (same : List.Forall₂ (fun f g => f.1 = g.1 ∧ R f.2 g.2) fields fields') (name : String) :
    Option.Rel R (fields.lookup name) (fields'.lookup name) := by
  induction same with
  | nil => exact .none
  | @cons f g fields fields' head _ ih =>
      obtain ⟨n, v⟩ := f
      obtain ⟨_, w⟩ := g
      obtain ⟨rfl, related⟩ := head
      rw [List.lookup_cons, List.lookup_cons]
      cases name == n with
      | true => exact .some related
      | false => exact ih

theorem exists_record?_of_represents {r : Reading ν} {fields : List (String × Value)} {v : ν}
    {names : List String} (h : Represents r (.record fields) v)
    (distinct : (fields.map Prod.fst).Nodup) (known : ∀ f ∈ fields, f.1 ∈ names) :
    ∃ found, r.record? names v = some found ∧
      (∀ f ∈ fields, ∃ node, found.lookup f.1 = some node ∧ Represents r f.2 node) ∧
      ∀ name, fields.lookup name = none → found.lookup name = none := by
  obtain ⟨entries, read, -, same⟩ := represents_record.1 h
  have related : List.Forall₂ (fun f g => f.1 = g.1 ∧ Represents r f.2 g.2) fields
      (entries.map fun e => (e.name, e.node)) :=
    List.forall₂_map_right_iff.2 (same.imp fun f e h => ⟨h.name.symm, h.node⟩)
  have sameNames : (entries.map fun e => (e.name, e.node)).map Prod.fst = fields.map Prod.fst := by
    rw [← List.forall₂_eq_eq_eq, List.forall₂_map_left_iff, List.forall₂_map_right_iff]
    exact (related.imp fun f g h => h.1.symm).flip
  refine ⟨entries.map fun e => (e.name, e.node), ?_, fun f member => ?_, fun name missing => ?_⟩
  · rw [Reading.record?, read]
    refine Reading.known?_eq_some.2 ⟨(List.filter_eq_self.2 fun f member => ?_).symm,
      sameNames ▸ distinct⟩
    obtain ⟨g, inside, same⟩ := List.mem_map.1 (sameNames ▸ List.mem_map_of_mem member)
    exact List.contains_iff_mem.2 (same ▸ known g inside)
  · obtain ⟨g, inside, same, node⟩ := exists_mem_of_forall₂ related member
    exact ⟨g.2, same ▸ lookup_of_mem (sameNames ▸ distinct) inside, node⟩
  · have looked := lookup_of_forall₂ related name
    rw [missing] at looked
    generalize List.lookup name _ = found at looked
    cases looked
    rfl

namespace Value

theorem represents_text_self (s : String) : Represents reading (.text s) (.text s) :=
  represents_text.2 ⟨rfl, rfl, rfl⟩

theorem represents_list_self {items : List Value}
    (same : ∀ w ∈ items, Represents reading w w) :
    Represents reading (.list items) (.list items) :=
  represents_list.2 ⟨items, rfl, List.forall₂_same.2 same⟩

theorem represents_record_self {fields : List (String × Value)}
    (same : ∀ f ∈ fields, Represents reading f.2 f.2) :
    Represents reading (.record fields) (.record fields) := by
  refine represents_record.2 ⟨fields.map fun f => ⟨f.1, .text f.1, f.2⟩, fun _ => ?_, ?_, ?_⟩
  · simp only [record, reading, bare, List.mapM_map, Function.comp_def, List.map_map]
    exact List.mapM_pure ..
  · simp [record, reading, Function.comp_def]
  · rw [List.forall₂_map_right_iff, List.forall₂_same]
    exact fun f member => ⟨rfl, rfl, same f member⟩

end Value

end AnimatedCanvas
