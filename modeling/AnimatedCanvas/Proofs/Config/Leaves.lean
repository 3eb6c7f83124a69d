import AnimatedCanvas.Proofs.Config.Paths

namespace AnimatedCanvas

open Reading
open Yaml (Tree Node Kind)

namespace Yaml.Tree.Denotes

variable {t : Tree} {v : Node}

theorem bareText?_ne_of_null {α : Type} {tag : String} {f : String → Option α} {x : α}
    (h : t.Denotes v .null) (fails : ∀ blank ∈ ["", "null", "Null", "NULL", "~"], f blank = none) :
    (do f (← (← t.follow? v).bareText? tag)) ≠ some x := by
  intro read
  obtain ⟨s, kind, some⟩ := h.kind_of_bareText? read
  have none := kind.of_null (p := fun s => f s = none) fails
  cases some.symm.trans none

theorem text?_of_null {s : String} (h : t.Denotes v .null)
    (read : t.reading.text? v = some s) : Kind s .null := by
  obtain ⟨tag, style, node⟩ := scalar_of_text? read
  exact h.kind node

theorem word?_of_null {s : String} (h : t.Denotes v .null)
    (read : t.reading.word? v = some s) : Kind s .null := by
  obtain ⟨tag, style, text, node, bare, kind⟩ := h.scalar_of_null
  obtain ⟨node', followed, word⟩ := Option.bind_eq_some_iff.1 read
  cases node.symm.trans followed
  simp only [Node.word?, bare] at word
  exact Option.some.inj word ▸ kind

theorem items?_of_null {vs : List Node} (h : t.Denotes v .null)
    (read : t.reading.items? v = some vs) : vs = [] := by
  obtain ⟨tag, style, text, node, -, -⟩ := h.scalar_of_null
  obtain ⟨node', followed, items⟩ := Option.bind_eq_some_iff.1 read
  cases node.symm.trans followed
  exact (Option.some.inj (Option.ite_none_right_eq_some.1 items).2).symm

end Yaml.Tree.Denotes

namespace Codec

variable {t : Tree}

theorem Loaded.of_flat {β : Type} {codec : Codec β} {initial x y : β} (flat : codec.Flat)
    (filled : ∀ v, t.Denotes v .null → codec.read? t.reading v ≠ some x)
    (h : codec.Loaded t initial x y) : (x = initial ∧ y = initial) ∨
      ∃ v w, t.Denotes v w ∧ codec.read? t.reading v = some x ∧
        codec.read? Value.reading w = some y := by
  cases h with
  | missing direct layered => exact .inl ⟨direct, layered⟩
  | @given v w u denotes direct layered source =>
      refine .inr ⟨v, w, denotes, direct, ?_⟩
      obtain rfl | rfl := source
      · exact layered
      · have given : w ≠ .null := by
          rintro rfl
          exact filled v denotes direct
        rwa [Value.merge_of_ne_null (flat initial) given] at layered

theorem eq_of_count {i m n : Nat} (h : count.Loaded t i m n) : m = n := by
  obtain ⟨rfl, rfl⟩ | ⟨v, w, denotes, direct, layered⟩ := h.of_flat (by simp [Flat, Value.count])
    fun v null => null.bareText?_ne_of_null (by decide)
  · rfl
  · exact denotes.eq_of_count? direct layered

theorem eq_of_flag {i a b : Bool} (h : flag.Loaded t i a b) : a = b := by
  obtain ⟨rfl, rfl⟩ | ⟨v, w, denotes, direct, layered⟩ := h.of_flat (by simp [Flat])
    fun v null => null.bareText?_ne_of_null (by decide)
  · rfl
  · exact denotes.eq_of_flag? direct layered

theorem beq_of_real {i x y : Float} (h : real.Loaded t i x y) (finite : x.isFinite = true) :
    (x == y) = true := by
  have number := Binary64.isNaN_of_isFinite finite
  obtain ⟨rfl, rfl⟩ | ⟨v, w, denotes, direct, layered⟩ := h.of_flat (by simp [Flat, Value.real])
    fun v null => null.bareText?_ne_of_null (by decide)
  · exact Binary64.beq_iff.2 ⟨number, number, rfl⟩
  · exact denotes.beq_of_real? direct layered number

theorem eq_of_word {β : Type} {codec : Codec β} {f : String → Option β} {i x y : β}
    (reads : ∀ {ν : Type} (r : Reading ν) (v : ν), codec.read? r v = (r.word? v).bind f)
    (fails : ∀ blank ∈ ["", "null", "Null", "NULL", "~"], f blank = none) (flat : codec.Flat)
    (h : codec.Loaded t i x y) : x = y := by
  have filled (v : Node) (null : t.Denotes v .null) : codec.read? t.reading v ≠ some x := by
    intro read
    rw [reads] at read
    obtain ⟨s, word, some⟩ := Option.bind_eq_some_iff.1 read
    cases some.symm.trans ((null.word?_of_null word).of_null (p := fun s => f s = none) fails)
  obtain ⟨rfl, rfl⟩ | ⟨v, w, denotes, direct, layered⟩ := h.of_flat flat filled
  · rfl
  · rw [reads] at direct layered
    obtain ⟨s, word, direct⟩ := Option.bind_eq_some_iff.1 direct
    obtain ⟨s', word', layered⟩ := Option.bind_eq_some_iff.1 layered
    rw [denotes.eq_of_word? word word'] at direct
    exact Option.some.inj (direct.symm.trans layered)

theorem eq_of_force {i f f' : PointerForce} (h : force.Loaded t i f f') : f = f' :=
  eq_of_word (fun _ _ => rfl) (by decide) (by simp [Flat]) h

theorem eq_of_style {i s s' : WaveStyle} (h : style.Loaded t i s s') : s = s' :=
  eq_of_word (fun _ _ => rfl) (by decide) (by simp [Flat]) h

theorem eq_of_ofNode? {v : Node} {w : Value} {c c' : Color} (denotes : t.Denotes v w)
    (direct : Color.ofNode? t.reading v = some c)
    (layered : Color.ofNode? Value.reading w = some c') : c = c' := by
  obtain ⟨s, text, direct⟩ := Option.bind_eq_some_iff.1 direct
  obtain ⟨s', text', layered⟩ := Option.bind_eq_some_iff.1 layered
  rw [denotes.eq_of_text? text text'] at direct
  exact Option.some.inj (direct.symm.trans layered)

theorem eq_of_color {i c c' : Color} (h : color.Loaded t i c c') : c = c' := by
  have filled (v : Node) (null : t.Denotes v .null) : Color.ofNode? t.reading v ≠ some c := by
    intro read
    obtain ⟨s, text, some⟩ := Option.bind_eq_some_iff.1 read
    have none := (null.text?_of_null text).of_null (p := fun s => Color.read? s = none) (by decide)
    cases some.symm.trans none
  obtain ⟨rfl, rfl⟩ | ⟨v, w, denotes, direct, layered⟩ :=
    h.of_flat (by simp [Flat, Color.value]) filled
  · rfl
  · exact eq_of_ofNode? denotes direct layered

theorem eq_of_palette {i cs cs' : List Color} (h : palette.Loaded t i cs cs')
    (nonempty : cs ≠ []) : cs = cs' := by
  have filled (v : Node) (null : t.Denotes v .null) : Color.palette? t.reading v ≠ some cs := by
    intro read
    obtain ⟨vs, items, colors⟩ := Option.bind_eq_some_iff.1 read
    rw [null.items?_of_null items] at colors
    exact nonempty (Option.some.inj colors).symm
  obtain ⟨rfl, rfl⟩ | ⟨v, w, denotes, direct, layered⟩ :=
    h.of_flat (by simp [Flat, Color.paletteValue]) filled
  · rfl
  · obtain ⟨vs, items, direct⟩ := Option.bind_eq_some_iff.1 direct
    obtain ⟨ws, items', layered⟩ := Option.bind_eq_some_iff.1 layered
    have parts := denotes.forall₂_of_items? items items'
    have colors : List.Forall₂ (fun c w =>
        ∀ c', Color.ofNode? Value.reading w = some c' → c = c') cs ws :=
      forall₂_trans (mapM_eq_some_iff.1 direct).flip parts fun _ _ _ direct denotes _ layered =>
        eq_of_ofNode? denotes direct layered
    have same : List.Forall₂ Eq cs cs' :=
      forall₂_trans colors (mapM_eq_some_iff.1 layered) fun _ _ _ eq layered => eq _ layered
    exact List.forall₂_eq_eq_eq ▸ same

theorem reals_of_span {ν : Type} {r : Reading ν} {v : ν} {s : Span}
    (h : Span.read? r v = some s) : ∃ a b, r.items? v = some [a, b] ∧
      r.real? a = some s.min ∧ r.real? b = some s.max := by
  obtain ⟨vs, items, h⟩ := Option.bind_eq_some_iff.1 h
  split at h
  next a b =>
    obtain ⟨min, first, h⟩ := Option.bind_eq_some_iff.1 h
    obtain ⟨max, second, h⟩ := Option.bind_eq_some_iff.1 h
    cases h
    exact ⟨a, b, items, first, second⟩
  · cases h

theorem beq_of_span {i s s' : Span} (h : span.Loaded t i s s') (min : s.min.isFinite = true)
    (max : s.max.isFinite = true) : (s.min == s'.min) = true ∧ (s.max == s'.max) = true := by
  have first := Binary64.isNaN_of_isFinite min
  have second := Binary64.isNaN_of_isFinite max
  have filled (v : Node) (null : t.Denotes v .null) : Span.read? t.reading v ≠ some s := by
    intro read
    obtain ⟨a, b, items, -⟩ := reals_of_span read
    cases null.items?_of_null items
  obtain ⟨rfl, rfl⟩ | ⟨v, w, denotes, direct, layered⟩ :=
    h.of_flat (by simp [Flat, Span.value]) filled
  · exact ⟨Binary64.beq_iff.2 ⟨first, first, rfl⟩, Binary64.beq_iff.2 ⟨second, second, rfl⟩⟩
  · obtain ⟨a, b, items, reads⟩ := reals_of_span direct
    obtain ⟨a', b', items', reads'⟩ := reals_of_span layered
    have parts := denotes.forall₂_of_items? items items'
    rw [List.forall₂_cons, List.forall₂_cons] at parts
    exact ⟨parts.1.beq_of_real? reads.1 reads'.1 first,
      parts.2.1.beq_of_real? reads.2 reads'.2 second⟩

end Codec
end AnimatedCanvas
