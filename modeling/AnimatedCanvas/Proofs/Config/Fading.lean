import AnimatedCanvas.Proofs.Config.Backdrop
import AnimatedCanvas.Proofs.Config.Layers

namespace AnimatedCanvas

open Reading

namespace Backdrop

def Plain (e : Value × Value) : Prop :=
  isMode e.1 = false ∧ e.1.hasTag = false ∧ e.2.hasTag = false

theorem value?_eq_some {v w : Value} :
    Value.reading.value? v = some w ↔ v.hasTag = false ∧ w = v := by
  change (if v.hasTag then none else some v) = some w ↔ _
  cases v.hasTag <;> simp [eq_comm]

theorem isMode_text {name : String} (other : name ≠ "mode") : isMode (.text name) = false :=
  Bool.eq_false_iff.2 fun same => other (Value.text.inj (isMode_iff.1 same))

theorem split?_plain {es : List (Value × Value)} :
    ∀ {fields : List (Value × Value)}, split? Value.reading es = some (none, fields) ↔
      fields = es ∧ ∀ e ∈ es, Plain e := by
  induction es with
  | nil => simp [split?, eq_comm]
  | cons e es ih =>
      intro fields
      obtain ⟨k, v⟩ := e
      rw [split?, List.forall_mem_cons]
      constructor
      · intro h
        obtain ⟨key, read, below⟩ := Option.bind_eq_some_iff.1 h
        obtain ⟨bare, rfl⟩ := value?_eq_some.1 read
        split at below
        next =>
          obtain ⟨s, -, below⟩ := Option.bind_eq_some_iff.1 below
          obtain ⟨⟨mode, rest⟩, -, below⟩ := Option.bind_eq_some_iff.1 below
          split at below <;> cases below
        next other =>
          obtain ⟨w, value, tail⟩ := Option.bind_eq_some_iff.1 below
          obtain ⟨⟨mode, rest⟩, splits, same⟩ := Option.bind_eq_some_iff.1 tail
          cases same
          obtain ⟨bare', rfl⟩ := value?_eq_some.1 value
          obtain ⟨rfl, plain⟩ := ih.1 splits
          exact ⟨rfl, ⟨Bool.eq_false_iff.2 (mt isMode_iff.1 other), bare, bare'⟩, plain⟩
      · rintro ⟨rfl, ⟨other, bare, bare'⟩, plain⟩
        rw [value?_eq_some.2 ⟨bare, rfl⟩, Option.bind_eq_bind, Option.bind_some]
        split
        next mode =>
          rw [isMode_iff.2 mode] at other
          cases other
        · rw [value?_eq_some.2 ⟨bare', rfl⟩, ih.2 ⟨rfl, plain⟩]
          rfl

theorem read?_mode {v : Value} {fields : List (Value × Value)} {b : Backdrop} :
    read? Value.reading (.map ((.text "mode", v) :: fields)) = some b ↔
      (∀ e ∈ fields, Plain e) ∧ ∃ mode, Value.reading.text? v = some mode ∧
        (mode = "clear" ∧ b = .clear ∨ mode = "fade" ∧ fade? fields = some b) := by
  have splits {s : String} {rest : List (Value × Value)} :
      split? Value.reading ((.text "mode", v) :: fields) = some (some s, rest) ↔
        Value.reading.text? v = some s ∧ rest = fields ∧ ∀ e ∈ fields, Plain e := by
    rw [split?, value?_eq_some.2 ⟨rfl, rfl⟩, Option.bind_eq_bind, Option.bind_some]
    constructor
    · intro h
      obtain ⟨s, text, h⟩ := Option.bind_eq_some_iff.1 h
      obtain ⟨⟨mode, rest⟩, below, h⟩ := Option.bind_eq_some_iff.1 h
      split at h
      next none =>
        cases h
        cases none
        exact ⟨text, split?_plain.1 below⟩
      · cases h
    · rintro ⟨text, plain⟩
      rw [text, split?_plain.2 plain]
      rfl
  constructor
  · intro h
    obtain ⟨mode, rest, split, read⟩ := mode_of_read?_map rfl h
    obtain ⟨text, rfl, plain⟩ := splits.1 split
    exact ⟨plain, mode, text, read⟩
  · rintro ⟨plain, mode, text, read⟩
    have collection (es : List (Value × Value)) :
        Value.reading.collection? (.map es) = some (.map es) := rfl
    rw [read?, collection, Option.bind_eq_bind, Option.bind_some]
    dsimp only
    rw [splits.2 ⟨text, rfl, plain⟩, Option.bind_eq_bind, Option.bind_some]
    obtain ⟨rfl, rfl⟩ | ⟨rfl, read⟩ := read
    · rfl
    · exact read

def Membered : List (Value × Value) → List (Member × Value) → Prop :=
  List.Forall₂ fun e f => member? e.1 = some f.1 ∧ f.2 = e.2

theorem mapM_member?_eq_some {fields : List (Value × Value)} {named : List (Member × Value)} :
    (fields.mapM fun (k, v) => do return (← member? k, v)) = some named ↔
      Membered fields named := by
  rw [Codec.mapM_eq_some_iff]
  constructor
  · refine fun same => same.imp fun e f h => ?_
    obtain ⟨m, member, h⟩ := Option.bind_eq_some_iff.1 h
    cases h
    exact ⟨member, rfl⟩
  · refine fun same => same.imp fun e f h => ?_
    obtain ⟨m, v⟩ := f
    obtain ⟨member, rfl⟩ : member? e.1 = some m ∧ v = e.2 := h
    exact Option.bind_eq_some_iff.2 ⟨m, member, rfl⟩

theorem only?_cons {m : Member} {x v : Value} {named : List (Member × Value)} :
    only? m ((m, x) :: named) = some v ↔ v = x ∧ ∀ f ∈ named, f.1 ≠ m := by
  have first : ((m, x) :: named).filter (·.1 == m) = (m, x) :: named.filter (·.1 == m) :=
    List.filter_cons_of_pos (beq_self_eq_true m)
  have none : named.filter (·.1 == m) = [] ↔ ∀ f ∈ named, f.1 ≠ m := by
    simp only [List.filter_eq_nil_iff, beq_iff_eq, ne_eq]
  rw [only?, first, ← none]
  cases named.filter (·.1 == m) with
  | nil => simp only [Option.some.injEq, and_true, @eq_comm _ x]
  | cons f rest => simp only [reduceCtorEq, and_false]

theorem only?_cons_other {m n : Member} {x : Value} {named : List (Member × Value)}
    (other : n ≠ m) : only? m ((n, x) :: named) = only? m named := by
  rw [only?, List.filter_cons_of_neg (by simpa using other), only?]

section

variable {x y v : Value} {more : List (Value × Value)} {named rest : List (Member × Value)}

theorem membered_fading :
    Membered ((.text "color", x) :: (.text "alpha", y) :: more) named ↔
      ∃ rest, Membered more rest ∧ named = (.color, x) :: (.alpha, y) :: rest := by
  constructor
  · intro same
    obtain ⟨f, _, first, after, rfl⟩ := List.forall₂_cons_left_iff.1 same
    obtain ⟨g, rest, second, others, rfl⟩ := List.forall₂_cons_left_iff.1 after
    obtain rfl : f = (.color, x) := Prod.ext (Option.some.inj first.1).symm first.2
    obtain rfl : g = (.alpha, y) := Prod.ext (Option.some.inj second.1).symm second.2
    exact ⟨rest, others, rfl⟩
  · rintro ⟨rest, same, rfl⟩
    exact .cons ⟨rfl, rfl⟩ (.cons ⟨rfl, rfl⟩ same)

theorem only?_color : only? .color ((Member.color, x) :: (.alpha, y) :: rest) = some v ↔
    v = x ∧ ∀ f ∈ rest, f.1 ≠ .color := by
  rw [only?_cons, List.forall_mem_cons]
  simp only [ne_eq, reduceCtorEq, not_false_eq_true, true_and]

theorem only?_alpha : only? .alpha ((Member.color, x) :: (.alpha, y) :: rest) = some v ↔
    v = y ∧ ∀ f ∈ rest, f.1 ≠ .alpha := by
  rw [only?_cons_other (by decide), only?_cons]

theorem forall_other_of_membered (same : Membered more rest) (noColor : ∀ f ∈ rest, f.1 ≠ .color)
    (noAlpha : ∀ f ∈ rest, f.1 ≠ .alpha) : ∀ e ∈ more, member? e.1 = some .other := by
  intro e inside
  obtain ⟨f, there, member, -⟩ := exists_mem_of_forall₂ same inside
  rw [member]
  cases kind : f.1 with
  | color => exact absurd kind (noColor f there)
  | alpha => exact absurd kind (noAlpha f there)
  | other => rfl

theorem exists_membered_of_other (others : ∀ e ∈ more, member? e.1 = some .other) :
    ∃ rest, Membered more rest ∧ ∀ f ∈ rest, f.1 = .other := by
  refine ⟨more.map fun e => (.other, e.2), ?_, List.forall_mem_map.2 fun _ _ => rfl⟩
  rw [Membered, List.forall₂_map_right_iff, List.forall₂_same]
  exact fun e inside => ⟨others e inside, rfl⟩

end

theorem fade?_named {x y : Value} {more : List (Value × Value)} {b : Backdrop} :
    fade? ((.text "color", x) :: (.text "alpha", y) :: more) = some b ↔
      (∀ e ∈ more, member? e.1 = some .other) ∧ ∃ color alpha, colorOf? x = some color ∧
        alphaOf? y = some alpha ∧ b = .fade color alpha := by
  constructor
  · intro h
    obtain ⟨named, mapped, h⟩ := Option.bind_eq_some_iff.1 h
    obtain ⟨rest, same, rfl⟩ := membered_fading.1 (mapM_member?_eq_some.1 mapped)
    obtain ⟨x', first, h⟩ := Option.bind_eq_some_iff.1 h
    obtain ⟨color, readColor, h⟩ := Option.bind_eq_some_iff.1 h
    obtain ⟨y', second, h⟩ := Option.bind_eq_some_iff.1 h
    obtain ⟨alpha, readAlpha, h⟩ := Option.bind_eq_some_iff.1 h
    cases h
    obtain ⟨rfl, noColor⟩ := only?_color.1 first
    obtain ⟨rfl, noAlpha⟩ := only?_alpha.1 second
    exact ⟨forall_other_of_membered same noColor noAlpha, color, alpha, readColor, readAlpha, rfl⟩
  · rintro ⟨others, color, alpha, readColor, readAlpha, rfl⟩
    obtain ⟨rest, same, other⟩ := exists_membered_of_other others
    rw [fade?, mapM_member?_eq_some.2 (membered_fading.2 ⟨rest, same, rfl⟩), Option.bind_eq_bind,
      Option.bind_some,
      only?_color.2 ⟨rfl, fun f inside => by rw [other f inside]; decide⟩,
      only?_alpha.2 ⟨rfl, fun f inside => by rw [other f inside]; decide⟩, Option.bind_eq_bind,
      Option.bind_some, readColor, Option.bind_eq_bind, Option.bind_some, Option.bind_eq_bind,
      Option.bind_some, readAlpha]
    rfl

def isNumbered : Value → Bool
  | .number (.natural n) => decide (n < 2)
  | _ => false

/-- Whether a patch names a field of a backdrop by its number. -/
def numbers : Value → Bool
  | .map entries => entries.any fun e => isNumbered e.1
  | _ => false

theorem eq_text_of_member? {k : Value} {m : Member} (named : member? k = some m)
    (unnumbered : isNumbered k = false) :
    (m = .color → k = .text "color") ∧ (m = .alpha → k = .text "alpha") := by
  unfold member? at named
  split at named
  all_goals cases named
  all_goals simp_all [isNumbered]

theorem member?_of_isNumbered {k : Value} (numbered : isNumbered k = true) :
    member? k ≠ some .other := by
  unfold isNumbered at numbered
  split at numbered
  next n =>
    match n, of_decide_eq_true numbered with
    | 0, _ => decide
    | 1, _ => decide
  · cases numbered

section

variable {color : Color} {alpha : Float} {b b' : Backdrop} {ws : List (Value × Value)}

theorem merge_clear (keys : ws.Pairwise fun a b => a.1.same b.1 = false) :
    Backdrop.clear.value.merge (.map ws) =
      .map ((.text "mode", (Value.text "clear").merge ((Value.map ws).member "mode")) ::
        Value.beside ["mode"] ws) := by
  have names : ([("mode", Value.text "clear")].map Prod.fst).Nodup :=
    show ["mode"].Nodup by decide
  exact Value.record_merge names keys

theorem merge_fade (keys : ws.Pairwise fun a b => a.1.same b.1 = false) :
    (Backdrop.fade color alpha).value.merge (.map ws) =
      .map ((.text "mode", (Value.text "fade").merge ((Value.map ws).member "mode")) ::
        (.text "color", color.value.merge ((Value.map ws).member "color")) ::
        (.text "alpha", (Value.real alpha).merge ((Value.map ws).member "alpha")) ::
        Value.beside ["mode", "color", "alpha"] ws) := by
  exact Value.record_merge nodup_fading keys

theorem hasTag_merge {base w : Value} (flat : ∀ entries, base ≠ .map entries)
    (bare : base.hasTag = false) : (base.merge w).hasTag = w.hasTag := by
  by_cases null : w = .null
  · rw [null, Value.merge_null, bare]
    rfl
  · rw [Value.merge_of_ne_null flat null]

theorem forall_plain_fade (keys : ws.Pairwise fun a b => a.1.same b.1 = false) :
    (∀ e ∈ (.text "color", color.value.merge ((Value.map ws).member "color")) ::
        (.text "alpha", (Value.real alpha).merge ((Value.map ws).member "alpha")) ::
        Value.beside ["mode", "color", "alpha"] ws, Plain e) ↔ ∀ e ∈ Value.beside ["mode"] ws, Plain e := by
  have field {name : String} {base : Value} (flat : ∀ entries, base ≠ .map entries)
      (bare : base.hasTag = false) (other : name ≠ "mode") :
      Plain (.text name, base.merge ((Value.map ws).member name)) ↔
        ((Value.map ws).member name).hasTag = false := by
    simp only [Plain, isMode_text other, hasTag_merge flat bare, Value.hasTag, true_and]
  rw [List.forall_mem_cons, List.forall_mem_cons,
    field (by simp [Color.value]) rfl (by decide), field (by simp [Value.real]) rfl (by decide)]
  have given {e : Value × Value} {name : String} (inside : e ∈ ws) (here : e.1 = .text name) :
      (Value.map ws).member name = e.2 := by
    obtain ⟨key, w⟩ := e
    cases here
    rw [Value.member, Value.find?_of_mem keys inside, Option.getD_some]
  constructor
  · rintro ⟨colors, alphas, others⟩ e inside
    obtain ⟨inside, other⟩ := Value.mem_beside.1 inside
    have plain {name : String} (here : e.1 = .text name) (named : name ≠ "mode")
        (untagged : ((Value.map ws).member name).hasTag = false) : Plain e :=
      ⟨here ▸ isMode_text named, by rw [here]; rfl, given inside here ▸ untagged⟩
    by_cases isColor : e.1 = .text "color"
    · exact plain isColor (by decide) colors
    by_cases isAlpha : e.1 = .text "alpha"
    · exact plain isAlpha (by decide) alphas
    · exact others e (Value.mem_beside.2 ⟨inside, by simp_all⟩)
  · intro plain
    have untagged {name : String} (other : name ≠ "mode") :
        ((Value.map ws).member name).hasTag = false := by
      rw [Value.member]
      cases found : Value.find? ws (.text name) with
      | none => rfl
      | some w =>
          exact (plain (.text name, w)
            (Value.mem_beside.2 ⟨Value.mem_of_find? found, by simpa using other⟩)).2.2
    refine ⟨untagged (by decide), untagged (by decide), fun e inside => plain e ?_⟩
    obtain ⟨inside, other⟩ := Value.mem_beside.1 inside
    exact Value.mem_beside.2 ⟨inside, by simpa using other "mode" List.mem_cons_self⟩

theorem layers_clear (keys : ws.Pairwise fun a b => a.1.same b.1 = false) :
    Codec.backdrop.Layers .clear (.map ws) b ↔
      (∀ e ∈ Value.beside ["mode"] ws, Plain e) ∧ ∃ mode,
        Value.reading.text? ((Value.text "clear").merge ((Value.map ws).member "mode")) = some mode ∧
        (mode = "clear" ∧ b = .clear ∨
          mode = "fade" ∧ fade? (Value.beside ["mode"] ws) = some b) := by
  rw [Codec.Layers, Codec.backdrop_value, merge_clear keys, Codec.backdrop_read?, read?_mode]

theorem layers_fade (keys : ws.Pairwise fun a b => a.1.same b.1 = false) :
    Codec.backdrop.Layers (.fade color alpha) (.map ws) b ↔
      (∀ e ∈ Value.beside ["mode"] ws, Plain e) ∧ ∃ mode,
        Value.reading.text? ((Value.text "fade").merge ((Value.map ws).member "mode")) = some mode ∧
        (mode = "clear" ∧ b = .clear ∨ mode = "fade" ∧
          (∀ e ∈ Value.beside ["mode", "color", "alpha"] ws, member? e.1 = some .other) ∧
          ∃ color' alpha',
            colorOf? (color.value.merge ((Value.map ws).member "color")) = some color' ∧
            alphaOf? ((Value.real alpha).merge ((Value.map ws).member "alpha")) = some alpha' ∧
            b = .fade color' alpha') := by
  rw [Codec.Layers, Codec.backdrop_value, merge_fade keys, Codec.backdrop_read?, read?_mode,
    forall_plain_fade keys]
  simp only [fade?_named]

theorem text?_merge_again {m : Value} {s mode : String}
    (h : Value.reading.text? ((Value.text s).merge m) = some mode) :
    Value.reading.text? ((Value.text mode).merge m) = some mode :=
  Value.merge_again (by simp) (by simp) rfl h

theorem colorOf?_merge_again {base w : Value} {c : Color} (flat : ∀ entries, base ≠ .map entries)
    (h : colorOf? (base.merge w) = some c) : colorOf? (c.value.merge w) = some c :=
  Value.merge_again flat (by simp [Color.value]) (Color.read?_hex (opaque_of_colorOf? h)) h

theorem alphaOf?_merge_again {base w : Value} {x : Float} (flat : ∀ entries, base ≠ .map entries)
    (h : alphaOf? (base.merge w) = some x) : alphaOf? ((Value.real x).merge w) = some x :=
  Value.merge_again flat (by simp [Value.real]) rfl h

theorem named_of_fade? (keys : ws.Pairwise fun a b => a.1.same b.1 = false)
    (unnumbered : numbers (.map ws) = false)
    (h : fade? (Value.beside ["mode"] ws) = some (.fade color alpha)) :
    (∀ e ∈ Value.beside ["mode", "color", "alpha"] ws, member? e.1 = some .other) ∧
      colorOf? ((Value.map ws).member "color") = some color ∧
        alphaOf? ((Value.map ws).member "alpha") = some alpha := by
  have plain {e : Value × Value} (inside : e ∈ ws) : isNumbered e.1 = false := by
    simpa using List.any_eq_false.1 unnumbered e inside
  have given {m : Member} {k v : Value}
      (only : (Value.beside ["mode"] ws).filter (isMember m) = [(k, v)]) {name : String}
      (here : isNumbered k = false → member? k = some m → k = .text name) :
      (Value.map ws).member name = v := by
    obtain ⟨inside, member⟩ := List.mem_filter.1 (only ▸ List.mem_singleton_self (k, v))
    have inside := (Value.mem_beside.1 inside).1
    cases here (plain inside) (of_decide_eq_true member)
    rw [Value.member, Value.find?_of_mem keys inside, Option.getD_some]
  obtain ⟨ck, cv, ak, av, _, _, colors, alphas, readColor, readAlpha, same⟩ := members_of_fade? h
  cases same
  -- Without numbers, a key that names a field of the backdrop is that field's name.
  refine ⟨fun e inside => ?_, ?_, ?_⟩
  · obtain ⟨inside, other⟩ := Value.mem_beside.1 inside
    obtain ⟨named, mapped, -⟩ := Option.bind_eq_some_iff.1 h
    obtain ⟨f, -, member, -⟩ := exists_mem_of_forall₂ (mapM_member?_eq_some.1 mapped)
      (Value.mem_beside.2 ⟨inside, by simpa using other "mode" List.mem_cons_self⟩)
    have key := eq_text_of_member? member (plain inside)
    rw [member]
    cases kind : f.1 with
    | color => exact absurd (key.1 kind) (other "color" (by simp))
    | alpha => exact absurd (key.2 kind) (other "alpha" (by simp))
    | other => rfl
  · rwa [given colors fun plain member => (eq_text_of_member? member plain).1 rfl]
  · rwa [given alphas fun plain member => (eq_text_of_member? member plain).2 rfl]

theorem layers_again {patch : Value} (distinct : patch.Distinct)
    (unnumbered : b = .clear → b' ≠ .clear → numbers patch = false)
    (h : Codec.backdrop.Layers b patch b') : Codec.backdrop.Layers b' patch b' := by
  refine h.again_of_map fun ws same => ?_
  subst same
  have keys := distinct.keys
  cases b with
  | clear =>
      obtain ⟨plain, mode, text, ⟨rfl, rfl⟩ | ⟨rfl, fades⟩⟩ := (layers_clear keys).1 h
      · exact h
      · obtain ⟨_, _, _, _, color, alpha, -, -, -, -, rfl⟩ := members_of_fade? fades
        have none : ∀ entries, Value.null ≠ .map entries := by simp
        obtain ⟨others, readColor, readAlpha⟩ :=
          named_of_fade? keys (unnumbered rfl (by simp)) fades
        refine (layers_fade keys).2 ⟨plain, "fade", text?_merge_again text, .inr ⟨rfl, others, color,
          alpha, ?_, ?_, rfl⟩⟩
        · exact colorOf?_merge_again none (by rwa [Value.null_merge])
        · exact alphaOf?_merge_again none (by rwa [Value.null_merge])
  | fade color alpha =>
      obtain ⟨plain, mode, text, ⟨rfl, rfl⟩ | ⟨rfl, others, color', alpha', readColor, readAlpha, rfl⟩⟩ :=
        (layers_fade keys).1 h
      · exact (layers_clear keys).2 ⟨plain, "clear", text?_merge_again text, .inl ⟨rfl, rfl⟩⟩
      · exact (layers_fade keys).2 ⟨plain, "fade", text?_merge_again text, .inr ⟨rfl, others, color',
          alpha', colorOf?_merge_again (by simp [Color.value]) readColor,
          alphaOf?_merge_again (by simp [Value.real]) readAlpha, rfl⟩⟩

/-- Once a backdrop fades, no patch can name its fields by their numbers and leave it fading. -/
theorem refused_again {patch : Value} (distinct : patch.Distinct) (fades : b ≠ .clear)
    (numbered : numbers patch = true) (h : Codec.backdrop.Layers .clear patch b) :
    ¬ Codec.backdrop.Layers b patch b' := by
  intro again
  cases patch with
  | map ws =>
      have keys := distinct.keys
      obtain ⟨-, mode, text, ⟨-, clear⟩ | ⟨rfl, fade⟩⟩ := (layers_clear keys).1 h
      · exact fades clear
      obtain ⟨_, _, _, _, color, alpha, -, -, -, -, rfl⟩ := members_of_fade? fade
      obtain ⟨-, mode, text', ⟨rfl, -⟩ | ⟨-, others, -⟩⟩ := (layers_fade keys).1 again
      · exact absurd (Option.some.inj (text'.symm.trans (text?_merge_again text))) (by decide)
      · obtain ⟨e, inside, number⟩ := List.any_eq_true.1 numbered
        refine member?_of_isNumbered number (others e (Value.mem_beside.2 ⟨inside, ?_⟩))
        rintro name - here
        rw [here] at number
        cases number
  | _ => cases numbered

end

end Backdrop
end AnimatedCanvas
