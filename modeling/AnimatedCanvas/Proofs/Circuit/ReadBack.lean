import AnimatedCanvas.Circuit.Gate
import AnimatedCanvas.Proofs.Document.JsonPrinted

namespace AnimatedCanvas

namespace GateKind

theorem ofLabel?_eq_some {kind : GateKind} {label : String} :
    ofLabel? label = some kind ↔ label = kind.label := by
  constructor
  · intro h
    have same : (kind.label == label) = true :=
      List.find?_some (p := fun kind : GateKind => kind.label == label) h
    exact (eq_of_beq same).symm
  · rintro rfl
    cases kind <;> rfl

theorem isWord_label (kind : GateKind) : Value.isWord kind.label = true := by cases kind <;> decide

end GateKind

namespace GateEvent

def fields (e : GateEvent) : List (String × Value) :=
  [("kind", .text e.kind.label), ("track", .count e.track)] ++
    e.target.toList.map (fun t => ("target", .count t)) ++ [("time", .real e.time)]

theorem value_eq_record (e : GateEvent) : e.value = .record e.fields := by
  obtain ⟨kind, track, target, time⟩ := e
  cases target <;> rfl

theorem lookup_target (e : GateEvent) : e.fields.lookup "target" = e.target.map .count := by
  obtain ⟨kind, track, target, time⟩ := e
  cases target <;> rfl

theorem nodup_fields (e : GateEvent) : (e.fields.map Prod.fst).Nodup := by
  obtain ⟨kind, track, target, time⟩ := e
  cases target <;> simp [fields]

theorem mem_names (e : GateEvent) : ∀ f ∈ e.fields, f.1 ∈ names := by
  simp only [fields, List.forall_mem_append, List.forall_mem_map, List.forall_mem_cons]
  exact ⟨⟨by decide, fun _ _ => by decide⟩, by decide⟩

structure InRange (e : GateEvent) : Prop where
  track : e.track < Nat.pow 2 64
  target : ∀ t ∈ e.target, t < Nat.pow 2 64

theorem printed {e : GateEvent} (range : e.InRange) (time : Json.ReadsBack (.real e.time)) :
    Value.Printed Json.ReadsBack e.value := by
  have count {n : Nat} (small : n < Nat.pow 2 64) : Value.Printed Json.ReadsBack (.count n) :=
    .scalar (.natural (Json.readsBack_natural small))
  have kind : Value.Printed Json.ReadsBack (.text e.kind.label) :=
    .scalar (.text (.of_isWord e.kind.isWord_label))
  have keys : ∀ name ∈ names, Value.KeyText name := by decide
  rw [value_eq_record]
  refine .record (by simp [fields]) (fun f member => keys f.1 (e.mem_names f member)) ?_
  simp only [fields, List.forall_mem_append, List.forall_mem_map, List.forall_mem_cons]
  exact ⟨⟨⟨kind, count range.track, List.forall_mem_nil _⟩,
    fun t member => count (range.target t (Option.mem_toList.1 member))⟩,
    .scalar (.real time), List.forall_mem_nil _⟩

theorem target?_of_represents {j : Json} {n : Nat} (h : Represents Json.reading (.count n) j) :
    target? j = some (some n) := by
  have number := represents_count.1 h
  cases j with
  | number m => exact congrArg (Option.map some) number
  | _ => cases number

theorem read?_of_represents {e : GateEvent} {j : Json} (h : Represents Json.reading e.value j) :
    read? j = some e := by
  rw [value_eq_record] at h
  obtain ⟨found, record, present, absent⟩ :=
    exists_record?_of_represents h e.nodup_fields e.mem_names
  have kind : Reading.required found "kind" Json.reading.word? = some e.kind.label := by
    obtain ⟨node, looked, text⟩ := present ("kind", .text e.kind.label) (by simp [fields])
    rw [Reading.required, looked]
    exact (represents_text.1 text).2.1
  have track : Reading.required found "track" Json.reading.count? = some e.track := by
    obtain ⟨node, looked, count⟩ := present ("track", .count e.track) (by simp [fields])
    rw [Reading.required, looked]
    exact represents_count.1 count
  have target : Reading.field found "target" target? none = some e.target := by
    cases same : e.target with
    | none => rw [Reading.field, absent "target" (by rw [lookup_target, same]; rfl)]
    | some t =>
        obtain ⟨node, looked, count⟩ := present ("target", .count t) (by simp [fields, same])
        rw [Reading.field, looked]
        exact target?_of_represents count
  have time : Reading.required found "time" Json.reading.real? = some e.time := by
    obtain ⟨node, looked, real⟩ := present ("time", .real e.time) (by simp [fields])
    rw [Reading.required, looked]
    exact (represents_real.1 real).1
  have label : GateKind.ofLabel? e.kind.label = some e.kind := GateKind.ofLabel?_eq_some.2 rfl
  simp [read?, record, kind, label, track, target, time]

theorem mapM_read?_of_represents {es : List GateEvent} {js : List Json}
    (each : List.Forall₂ (Represents Json.reading) (es.map value) js) :
    js.mapM read? = some es := by
  induction es generalizing js with
  | nil =>
      obtain rfl := List.forall₂_nil_left_iff.1 each
      rfl
  | cons e es ih =>
      obtain ⟨j, js, first, rest, rfl⟩ := List.forall₂_cons_left_iff.1 each
      rw [List.mapM_cons, read?_of_represents first, ih rest]
      rfl

theorem ofJson?_of_reads {es : List GateEvent} {s : String} {body gap : List Char}
    (h : Json.Reads (listValue es) body) (same : s.toList = body ++ gap) (blank : Json.Blank gap) :
    ofJson? s = some es := by
  obtain ⟨j, read, represents⟩ := h.read? same blank
  obtain ⟨js, items, each⟩ := represents_list.1 represents
  rw [ofJson?, read, Option.bind_eq_bind, Option.bind_some, items]
  exact mapM_read?_of_represents each

/-- A sequence with finite times is read back from the JSON printed for it, in either layout, as long
as the texts of its times are read as these times. -/
theorem sequences_read_back :
    (∀ (kind : GateKind) (label : String),
      GateKind.ofLabel? label = some kind ↔ label = kind.label) ∧
    (∀ e : GateEvent, e.value = .record e.fields ∧
      e.fields.lookup "target" = e.target.map .count) ∧
    ∀ es : List GateEvent, (∀ e ∈ es, e.InRange) → (∀ e ∈ es, e.time.isFinite = true) →
      (∀ e ∈ es, e.time.isFinite = true → Json.ReadsBack (.real e.time)) →
        ofJson? (toJson es) = some es ∧
          ofJson? ((listValue es).jsonPretty "") = some es ∧
          ofJson? ((listValue es).jsonPretty "" ++ "\n") = some es := by
  refine ⟨fun kind label => GateKind.ofLabel?_eq_some, fun e => ⟨e.value_eq_record, e.lookup_target⟩,
    fun es range finite prints => ?_⟩
  have each : ∀ w ∈ es.map value, Value.Printed Json.ReadsBack w := by
    intro w member
    obtain ⟨e, inside, rfl⟩ := List.mem_map.1 member
    exact printed (range e inside) (prints e inside (finite e inside))
  have compact : Json.Reads (listValue es) (toJson es).toList :=
    Json.reads_json_list fun w member => Json.reads_json (each w member)
  have pretty : Json.Reads (listValue es) ((listValue es).jsonPretty "").toList :=
    Json.reads_jsonPretty_list (by simp [Json.Blank]) fun w member =>
      Json.reads_jsonPretty (each w member) (by simp [Json.Blank, Json.isSpace])
  exact ⟨ofJson?_of_reads compact (List.append_nil _).symm (List.forall_mem_nil _),
    ofJson?_of_reads pretty (List.append_nil _).symm (List.forall_mem_nil _),
    ofJson?_of_reads pretty String.toList_append (by simp [Json.Blank, Json.isSpace])⟩

theorem sequences_read_back_extremes :
    let es : List GateEvent :=
      [⟨.cnot, Nat.pow 2 64 - 1, some (Nat.pow 2 64 - 1), -0.0⟩, ⟨.h, 0, some 7, -1234.5⟩,
        ⟨.cz, Nat.pow 2 63, none, 0.1⟩]
    (∀ e ∈ es, e.InRange) ∧ (∀ e ∈ es, e.time.isFinite = true) ∧
      (∀ e ∈ es, Json.ReadsBack (.real e.time)) ∧
      ofJson? (toJson es) = some es ∧ ofJson? ((listValue es).jsonPretty "") = some es := by
  intro es
  have range : ∀ e ∈ es, e.InRange := by
    simp only [es, List.forall_mem_cons]
    exact ⟨⟨by decide, by decide⟩, ⟨by decide, by decide⟩, ⟨by decide, by decide⟩,
      List.forall_mem_nil _⟩
  have finite : ∀ e ∈ es, e.time.isFinite = true := by decide +kernel
  have prints : ∀ e ∈ es, Json.ReadsBack (.real e.time) := by decide +kernel
  obtain ⟨compact, pretty, -⟩ :=
    sequences_read_back.2.2 es range finite fun e member _ => prints e member
  exact ⟨range, finite, prints, compact, pretty⟩

end GateEvent
end AnimatedCanvas
