import AnimatedCanvas.Proofs.Config.Circuit
import AnimatedCanvas.Proofs.Config.Obtained
import AnimatedCanvas.Proofs.Document.JsonPrinted
import AnimatedCanvas.Proofs.Document.YamlTree

/-!
# Configurations are read back from their texts

A configuration that a program can come by is valid, so all its numbers are finite and none of its
palettes is empty. This makes what it is written as a printed value. Of the texts of numbers it is
assumed that they are read as the numbers that were printed.
-/

namespace AnimatedCanvas

open Value (Printed Scalar KeyText PlainText)

def Number.Finite : Number → Prop
  | .natural _ => True
  | .negative _ => True
  | .real x => x.isFinite = true

namespace Value

variable {allowed : Number → Prop}

theorem Printed.count (n : Nat) : Printed Number.Finite (.count n) := .scalar (.natural trivial)

theorem Printed.real {x : Float} (finite : x.isFinite = true) :
    Printed Number.Finite (.real x) := .scalar (.real finite)

theorem Printed.flag (b : Bool) : Printed allowed (.flag b) := .scalar (.flag b)

theorem Printed.word {s : String} (h : isWord s = true) : Printed allowed (.text s) :=
  .scalar (.text (.of_isWord h))

end Value

theorem Span.printed {s : Span} (h : s.Drawable) : Printed Number.Finite s.value :=
  .list (List.cons_ne_nil _ _) (List.forall_mem_cons.2 ⟨.real h.min,
    List.forall_mem_cons.2 ⟨.real h.max, List.forall_mem_nil _⟩⟩)

theorem Color.scalar_value {allowed : Number → Prop} (c : Color) : Scalar allowed c.value := by
  refine .text ⟨?_, ?_⟩
  · simp [hex]
  · exact forall_mem_hex (p := fun ch => Value.isPlainChar ch = true) rfl (by decide) c

theorem Color.printed_palette {allowed : Number → Prop} {cs : List Color} (nonempty : cs ≠ []) :
    Printed allowed (paletteValue cs) := by
  refine .list (by simpa using nonempty) fun w member => ?_
  obtain ⟨c, -, rfl⟩ := List.mem_map.1 member
  exact c.scalar_value

theorem Recorded.printed {α : Type} [Recorded α] {allowed : Number → Prop} {c : α}
    (nonempty : parts (α := α) ≠ []) (names : ∀ p ∈ parts (α := α), KeyText p.name)
    (each : ∀ p ∈ parts (α := α), Printed allowed (p.codec.value (p.get c))) :
    Printed allowed (value c) := by
  rw [value_eq]
  refine .record (by simpa using nonempty) ?_ ?_
  · intro f member
    obtain ⟨p, inside, rfl⟩ := List.mem_map.1 member
    exact names p inside
  · intro f member
    obtain ⟨p, inside, rfl⟩ := List.mem_map.1 member
    exact each p inside

theorem CircuitConfig.printed {c : CircuitConfig} (h : c.Valid) :
    Printed Number.Finite (Recorded.value c) := by
  refine Recorded.printed (by simp [Recorded.parts]) (by decide) ?_
  simp [Recorded.parts, Printed.count, Printed.real, h.dualChance.finite, Span.printed h.timeStep.1,
    h.tail.2, h.sweepRate.2, h.padding.2]

theorem Backdrop.printed {b : Backdrop}
    (h : ∀ color alpha, b = .fade color alpha → Check.InUnit alpha) :
    Printed Number.Finite b.value := by
  cases b with
  | clear =>
      exact .record (List.cons_ne_nil _ _) (by simp; decide)
        (List.forall_mem_singleton.2 (.word (by decide)))
  | fade color alpha =>
      refine .record (List.cons_ne_nil _ _) (by simp; decide) ?_
      simp only [List.forall_mem_cons]
      exact ⟨.word (by decide), .scalar color.scalar_value,
        .real (h color alpha rfl).finite, List.forall_mem_nil _⟩

theorem FieldConfig.printed {c : FieldConfig} (h : c.Valid) :
    Printed Number.Finite (Recorded.value c) := by
  have force (f : PointerForce) : Printed Number.Finite (.text f.name) := by
    cases f
    all_goals exact .word (by decide)
  have style (s : WaveStyle) : Printed Number.Finite (.text s.name) := by
    cases s
    all_goals exact .word (by decide)
  have trail : Printed Number.Finite (Recorded.value c.trail) := by
    refine Recorded.printed (by simp [Recorded.parts]) (by decide) ?_
    simp [Recorded.parts, Printed.count, Printed.real, h.trailOpacity.finite, h.trailScale.2]
  have pointer : Printed Number.Finite (Recorded.value c.pointer) := by
    refine Recorded.printed (by simp [Recorded.parts]) (by decide) ?_
    simp [Recorded.parts, Printed.real, force, h.pointerRadius.2, h.pointerStrength.2]
  have burst : Printed Number.Finite (Recorded.value c.burst) := by
    refine Recorded.printed (by simp [Recorded.parts]) (by decide) ?_
    simp [Recorded.parts, Printed.count, Printed.real, Span.printed h.burstSpeed,
      Span.printed h.burstRadius.1, Span.printed h.burstOpacity.1, h.burstFade.finite]
  have waves : Printed Number.Finite (Recorded.value c.waves) := by
    refine Recorded.printed (by simp [Recorded.parts]) (by decide) ?_
    simp [Recorded.parts, Printed.real, style, Span.printed h.wavesMaxRadius,
      Span.printed h.wavesSpeed, Color.printed_palette h.wavesPalette, h.wavesChance.finite,
      h.wavesOpacity.finite, h.wavesFade.finite, h.wavesLineWidth.2]
  have links : Printed Number.Finite (Recorded.value c.links) := by
    refine Recorded.printed (by simp [Recorded.parts]) (by decide) ?_
    simp [Recorded.parts, Printed.real, Printed.scalar c.links.color.scalar_value,
      h.linksDistance.2, h.linksOpacity.finite, h.linksWidth.2]
  refine Recorded.printed (by simp [Recorded.parts]) (by decide) ?_
  simp [Recorded.parts, ownParts, records, Printed.count, Printed.real, Printed.flag,
    Color.printed_palette h.palette, Span.printed h.radius.1, Span.printed h.speed,
    Span.printed h.opacity.1, h.finite_damping.1, h.retireMargin.2, h.glowScale.2, Backdrop.printed h.backdrop,
    trail, pointer, burst, waves, links]

namespace Configuration

variable {α : Type} [RecordedConfiguration α] {c : α}

theorem loads_back (regular : Recorded.Regular c) (valid : validate c = .ok ())
    (printed : Printed Number.Finite (value c))
    (prints : ∀ n ∈ (value c).numbers, n.Finite → Yaml.ReadsBack n ∧ Json.ReadsBack n) :
    ofYaml (toYaml c) = .ok c ∧ ofJson (toJson c) = .ok c := by
  constructor
  · have yaml : Printed Yaml.ReadsBack (Recorded.value c) :=
      printed.of_numbers fun n member finite => (prints n member finite).1
    rw [Recorded.value_eq] at yaml
    obtain ⟨t, read, represents⟩ := Yaml.Tree.read?_yaml yaml
    rw [← Recorded.value_eq] at read represents
    exact checked_eq_ok.2 ⟨Option.bind_eq_some_iff.2
      ⟨t, read, Recorded.read?_of_represents regular represents⟩, valid⟩
  · obtain ⟨j, read, represents⟩ :=
      Json.read?_json (printed.of_numbers fun n member finite => (prints n member finite).2)
    exact checked_eq_ok.2 ⟨Option.bind_eq_some_iff.2
      ⟨j, read, Recorded.read?_of_represents regular represents⟩, valid⟩

end Configuration

open AnimatedCanvas.Configuration

/-- A configuration that a program can come by is loaded back from what it is printed as, as long as
the texts of its numbers are read as these numbers. -/
theorem printed_loads_back :
    (∀ c : FieldConfig, Obtained FieldConfig.Given c →
      (∀ n ∈ (value c).numbers, n.Finite → Yaml.ReadsBack n ∧ Json.ReadsBack n) →
        ofYaml (toYaml c) = .ok c ∧ ofJson (toJson c) = .ok c) ∧
    ∀ c : CircuitConfig, Obtained CircuitConfig.Given c →
      (∀ n ∈ (value c).numbers, n.Finite → Yaml.ReadsBack n ∧ Json.ReadsBack n) →
        ofYaml (toYaml c) = .ok c ∧ ofJson (toJson c) = .ok c := by
  constructor
  · intro c obtained prints
    have valid := obtained.valid FieldConfig.Given.valid
    exact loads_back (obtained.regular FieldConfig.Given.regular) valid
      (FieldConfig.printed (FieldConfig.validate_eq_ok.1 valid)) prints
  · intro c obtained prints
    have valid := obtained.valid CircuitConfig.Given.valid
    exact loads_back (obtained.regular CircuitConfig.Given.regular) valid
      (CircuitConfig.printed (CircuitConfig.validate_eq_ok.1 valid)) prints

theorem printed_loads_back_presets :
    (ofYaml (toYaml FieldConfig.hero) = .ok FieldConfig.hero ∧
      ofJson (toJson FieldConfig.hero) = .ok FieldConfig.hero) ∧
    ofYaml (toYaml ({} : CircuitConfig)) = .ok ({} : CircuitConfig) ∧
      ofJson (toJson ({} : CircuitConfig)) = .ok ({} : CircuitConfig) := by
  constructor
  · refine printed_loads_back.1 FieldConfig.hero (.given (.inr ⟨"hero", rfl⟩)) fun n member _ => ?_
    have each : ∀ n ∈ (value FieldConfig.hero).numbers, Yaml.ReadsBack n ∧ Json.ReadsBack n := by
      decide +kernel
    exact each n member
  · refine printed_loads_back.2 {} (.given rfl) fun n member _ => ?_
    have each : ∀ n ∈ (value ({} : CircuitConfig)).numbers, Yaml.ReadsBack n ∧ Json.ReadsBack n := by
      decide +kernel
    exact each n member

end AnimatedCanvas
