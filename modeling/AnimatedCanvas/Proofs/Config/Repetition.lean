import AnimatedCanvas.Proofs.Config.Fading

/-!
# Overrides that are applied again

What a patch has made of a configuration, it leaves as it is (`withOverrides_again`), part by part.
The exception are overrides that make a clear backdrop fade and name its fields by their numbers:
they cannot be applied to their own result.
-/

namespace AnimatedCanvas

open AnimatedCanvas.Configuration

theorem FieldConfig.layers_again {c c' : FieldConfig} {patch : Value} (distinct : patch.Distinct)
    (unnumbered : c.backdrop = .clear → c'.backdrop ≠ .clear →
      Backdrop.numbers (patch.member "backdrop") = false)
    (h : (Recorded.codec FieldConfig).Layers c patch c') :
    (Recorded.codec FieldConfig).Layers c' patch c' := by
  refine Recorded.layers_again distinct (fun p member => ?_) h
  obtain own | rest := List.mem_append.1 member
  · exact .again_of_flat (flat_ownParts p own)
  obtain rfl | inside := List.mem_cons.1 rest
  · exact Backdrop.layers_again (distinct.member "backdrop") unnumbered
  have inner {name : String} := distinct.member name
  simp only [records, List.mem_cons, List.not_mem_nil, or_false] at inside
  obtain rfl | rfl | rfl | rfl | rfl := inside
  · exact Recorded.layers_again_of_flat (α := TrailConfig) inner TrailConfig.flat
  · exact Recorded.layers_again_of_flat (α := PointerConfig) inner PointerConfig.flat
  · exact Recorded.layers_again_of_flat (α := BurstConfig) inner BurstConfig.flat
  · exact Recorded.layers_again_of_flat (α := WaveConfig) inner WaveConfig.flat
  · exact Recorded.layers_again_of_flat (α := LinkConfig) inner LinkConfig.flat

theorem FieldConfig.refused_again {c c' c'' : FieldConfig} {patch : Value}
    (distinct : patch.Distinct) (untagged : patch.Untagged) (clear : c.backdrop = .clear)
    (fades : c'.backdrop ≠ .clear) (numbered : Backdrop.numbers (patch.member "backdrop") = true)
    (h : (Recorded.codec FieldConfig).Layers c patch c') :
    ¬ (Recorded.codec FieldConfig).Layers c' patch c'' := by
  intro again
  have part : ⟨"backdrop", (·.backdrop), .backdrop⟩ ∈ Recorded.parts (α := FieldConfig) :=
    List.mem_append_right _ List.mem_cons_self
  have first := Recorded.read?_merge distinct untagged h _ part
  have second := Recorded.read?_merge distinct untagged again _ part
  dsimp only at first
  rw [clear] at first
  exact Backdrop.refused_again (distinct.member "backdrop") fades numbered first second

theorem withOverrides_eq_ok_of_layers {α : Type} [RecordedConfiguration α] {c c' : α}
    {text : String} {patch : Value}
    (denotes : (Yaml.Tree.read? text).bind Yaml.Tree.value? = some patch)
    (done : withOverrides c text = .ok c') (again : (Recorded.codec α).Layers c' patch c') :
    withOverrides c' text = .ok c' := by
  obtain ⟨patch', denotes', layered⟩ := withOverrides_eq_ok.1 done
  exact withOverrides_eq_ok.2 ⟨patch, denotes, checked_eq_ok.2 ⟨again, (checked_eq_ok.1 layered).2⟩⟩

theorem withOverrides_eq_error_of_layers {α : Type} [RecordedConfiguration α] {c : α}
    {text : String} {patch : Value}
    (denotes : (Yaml.Tree.read? text).bind Yaml.Tree.value? = some patch)
    (refused : ∀ c', ¬ (Recorded.codec α).Layers c patch c') :
    withOverrides c text = .error .unreadable := by
  rw [withOverrides, denotes]
  exact congrArg checked (Option.eq_none_iff_forall_ne_some.2 refused)

/-- Overrides that are applied again change nothing more. They are refused only where they named the
fields of a backdrop by their numbers while it was clear, and it fades now. -/
theorem withOverrides_again :
    (∀ (c c' : FieldConfig) (text : String) (patch : Value),
      (Yaml.Tree.read? text).bind Yaml.Tree.value? = some patch →
      withOverrides c text = .ok c' →
      (¬ (c.backdrop = .clear ∧ c'.backdrop ≠ .clear ∧
          Backdrop.numbers (patch.member "backdrop") = true) →
        withOverrides c' text = .ok c') ∧
      (c.backdrop = .clear ∧ c'.backdrop ≠ .clear ∧
          Backdrop.numbers (patch.member "backdrop") = true →
        withOverrides c' text = .error .unreadable)) ∧
    (∀ (c c' : CircuitConfig) (text : String), withOverrides c text = .ok c' →
      withOverrides c' text = .ok c') := by
  constructor
  · intro c c' text patch denotes done
    obtain ⟨distinct, read⟩ := read?_of_withOverrides denotes done
    constructor
    · intro usual
      refine withOverrides_eq_ok_of_layers denotes done
        (FieldConfig.layers_again distinct (fun clear fades => ?_) read)
      exact Bool.eq_false_iff.2 fun numbered => usual ⟨clear, fades, numbered⟩
    · rintro ⟨clear, fades, numbered⟩
      have untagged : patch.Untagged := by
        rintro tag content rfl
        cases numbered
      exact withOverrides_eq_error_of_layers denotes fun c'' =>
        FieldConfig.refused_again distinct untagged clear fades numbered read
  · intro c c' text done
    obtain ⟨patch, denotes, -⟩ := withOverrides_eq_ok.1 done
    obtain ⟨distinct, read⟩ := read?_of_withOverrides denotes done
    exact withOverrides_eq_ok_of_layers denotes done
      (Recorded.layers_again_of_flat distinct CircuitConfig.flat read)

def numberedBackdrop : String := "backdrop:\n  mode: fade\n  color: '#112233'\n  1: 0.5\n"

theorem value?_numberedBackdrop :
    (Yaml.Tree.read? numberedBackdrop).bind Yaml.Tree.value? =
      some (.map [(.text "backdrop", .map [(.text "mode", .text "fade"),
        (.text "color", .text "#112233"), (.count 1, .real 0.5)])]) := by
  have scan : Yaml.Token.scan? numberedBackdrop =
      some [.blockMapStart, .key, .scalar .plain "backdrop", .value, .blockMapStart, .key,
        .scalar .plain "mode", .value, .scalar .plain "fade", .key, .scalar .plain "color", .value,
        .scalar .singleQuoted "#112233", .key, .scalar .plain "1", .value, .scalar .plain "0.5",
        .blockEnd, .blockEnd] := by
    decide +kernel
  rw [Yaml.Tree.read?, scan]
  rfl

def fadingAmbient : FieldConfig :=
  { FieldConfig.ambient with backdrop := .fade (.rgb 0x11 0x22 0x33) 0.5 }

theorem withOverrides_ambient :
    withOverrides FieldConfig.ambient numberedBackdrop = .ok fadingAmbient :=
  withOverrides_eq_ok.2 ⟨_, value?_numberedBackdrop, rfl⟩

theorem withOverrides_again_ambient :
    (withOverrides FieldConfig.ambient numberedBackdrop = .ok fadingAmbient ∧
      withOverrides fadingAmbient numberedBackdrop = .error .unreadable) ∧
    (withOverrides FieldConfig.quantum "backdrop:\n  mode: clear\n" =
        .ok { FieldConfig.quantum with backdrop := .clear } ∧
      withOverrides { FieldConfig.quantum with backdrop := .clear } "backdrop:\n  mode: clear\n" =
        .ok { FieldConfig.quantum with backdrop := .clear }) ∧
    (withOverrides ({} : CircuitConfig) "tracks: 7\n" = .ok { tracks := 7 } ∧
      withOverrides ({ tracks := 7 } : CircuitConfig) "tracks: 7\n" = .ok { tracks := 7 }) := by
  have scan : Yaml.Token.scan? "backdrop:\n  mode: clear\n" =
      some [.blockMapStart, .key, .scalar .plain "backdrop", .value, .blockMapStart, .key,
        .scalar .plain "mode", .value, .scalar .plain "clear", .blockEnd, .blockEnd] := by
    decide +kernel
  have denotes : (Yaml.Tree.read? "backdrop:\n  mode: clear\n").bind Yaml.Tree.value? =
      some (.map [(.text "backdrop", .map [(.text "mode", .text "clear")])]) := by
    rw [Yaml.Tree.read?, scan]
    rfl
  have done : withOverrides FieldConfig.quantum "backdrop:\n  mode: clear\n" =
      .ok { FieldConfig.quantum with backdrop := .clear } :=
    withOverrides_eq_ok.2 ⟨_, denotes, rfl⟩
  refine ⟨⟨withOverrides_ambient, ?_⟩, ⟨done, ?_⟩, withOverrides_tracks, ?_⟩
  · exact (withOverrides_again.1 _ _ _ _ value?_numberedBackdrop withOverrides_ambient).2
      ⟨rfl, by simp [fadingAmbient], rfl⟩
  · exact (withOverrides_again.1 _ _ _ _ denotes done).1 (by simp)
  · exact withOverrides_again.2 _ _ _ withOverrides_tracks

theorem withOverrides_not_idempotent :
    ¬ ∀ (c c' : FieldConfig) (text : String), Obtained FieldConfig.Given c →
      withOverrides c text = .ok c' → withOverrides c' text = .ok c' := by
  intro idempotent
  have again := idempotent FieldConfig.ambient fadingAmbient numberedBackdrop
    (.given (.inr ⟨"ambient", rfl⟩)) withOverrides_ambient
  have refused : withOverrides fadingAmbient numberedBackdrop = .error .unreadable := by
    rw [withOverrides, value?_numberedBackdrop]
    rfl
  cases refused.symm.trans again

end AnimatedCanvas
