import AnimatedCanvas.Proofs.Config.Field
import AnimatedCanvas.Proofs.Config.Record

namespace AnimatedCanvas

class RecordedConfiguration (α : Type) extends Configuration α, Recorded α

instance : RecordedConfiguration FieldConfig where

instance : RecordedConfiguration CircuitConfig where

open AnimatedCanvas.Configuration

inductive Obtained {α : Type} [Configuration α] (given : α → Prop) : α → Prop where
  | given {c : α} (start : given c) : Obtained given c
  | ofYaml {text : String} {c : α} (read : ofYaml text = .ok c) : Obtained given c
  | ofJson {text : String} {c : α} (read : ofJson text = .ok c) : Obtained given c
  | load {files : FileStore} {path : String} {c : α} (read : load files path = .ok c) :
    Obtained given c
  | withOverrides {c c' : α} {text : String} (before : Obtained given c)
    (layered : withOverrides c text = .ok c') : Obtained given c'

def FieldConfig.Given (c : FieldConfig) : Prop := c = {} ∨ ∃ name, preset name = .ok c

def CircuitConfig.Given (c : CircuitConfig) : Prop := c = {}

namespace Configuration

variable {α : Type} [Configuration α]

theorem checked_eq_ok {o : Option α} {c : α} :
    checked o = .ok c ↔ o = some c ∧ validate c = .ok () := by
  unfold checked
  cases o with
  | none => simp
  | some d =>
      dsimp only
      cases valid : validate d with
      | error e =>
          simp only [bind, Except.bind, reduceCtorEq, Option.some.injEq, false_iff, not_and]
          rintro rfl
          simp [valid]
      | ok u =>
          simp only [bind, Except.bind, pure, Except.pure, Except.ok.injEq, Option.some.injEq]
          constructor
          · rintro rfl
            exact ⟨rfl, valid⟩
          · exact And.left

def Loaded (c : α) : Prop :=
  (∃ (ν : Type) (r : Reading ν) (v : ν), read? r v = some c) ∧ validate c = .ok ()

theorem loaded_of_ofYaml {text : String} {c : α} (h : ofYaml text = .ok c) : Loaded c := by
  obtain ⟨read, valid⟩ := checked_eq_ok.1 h
  obtain ⟨t, -, read⟩ := Option.bind_eq_some_iff.1 read
  exact ⟨⟨_, t.reading, t.root, read⟩, valid⟩

theorem loaded_of_ofJson {text : String} {c : α} (h : ofJson text = .ok c) : Loaded c := by
  obtain ⟨read, valid⟩ := checked_eq_ok.1 h
  obtain ⟨j, -, read⟩ := Option.bind_eq_some_iff.1 read
  exact ⟨⟨_, Json.reading, j, read⟩, valid⟩

theorem ofJson_or_ofYaml_of_load {files : FileStore} {path : String} {c : α}
    (h : load files path = .ok c) : ∃ text, ofJson text = .ok c ∨ ofYaml text = .ok c := by
  unfold load at h
  split at h
  · cases h
  · split at h
    · cases h
    next text _ =>
      split at h
      · exact ⟨text, .inl h⟩
      · exact ⟨text, .inr h⟩

theorem loaded_of_load {files : FileStore} {path : String} {c : α}
    (h : load files path = .ok c) : Loaded c := by
  obtain ⟨text, read | read⟩ := ofJson_or_ofYaml_of_load h
  · exact loaded_of_ofJson read
  · exact loaded_of_ofYaml read

theorem withOverrides_eq_ok {c c' : α} {text : String} :
    withOverrides c text = .ok c' ↔
      ∃ patch, (Yaml.Tree.read? text).bind Yaml.Tree.value? = some patch ∧
        layered c patch = .ok c' := by
  unfold withOverrides
  cases (Yaml.Tree.read? text).bind Yaml.Tree.value? <;> simp

theorem loaded_of_withOverrides {c c' : α} {text : String}
    (h : withOverrides c text = .ok c') : Loaded c' := by
  obtain ⟨patch, -, h⟩ := withOverrides_eq_ok.1 h
  obtain ⟨read, valid⟩ := checked_eq_ok.1 h
  exact ⟨⟨_, Value.reading, _, read⟩, valid⟩

end Configuration

namespace Obtained

variable {α : Type}

theorem given_or_loaded [Configuration α] {start : α → Prop} {c : α} (h : Obtained start c) :
    start c ∨ Loaded c := by
  cases h with
  | given start => exact .inl start
  | ofYaml read => exact .inr (loaded_of_ofYaml read)
  | ofJson read => exact .inr (loaded_of_ofJson read)
  | load read => exact .inr (loaded_of_load read)
  | withOverrides _ layered => exact .inr (loaded_of_withOverrides layered)

variable [RecordedConfiguration α] {start : α → Prop} {c : α}

theorem regular (h : Obtained start c) (given : start c → Recorded.Regular c) :
    Recorded.Regular c := by
  obtain begun | ⟨⟨ν, r, v, read⟩, -⟩ := h.given_or_loaded
  · exact given begun
  · exact Recorded.regular_of_read? read

theorem valid (h : Obtained start c) (given : start c → validate c = .ok ()) :
    validate c = .ok () := by
  obtain begun | ⟨-, valid⟩ := h.given_or_loaded
  · exact given begun
  · exact valid

end Obtained

theorem FieldConfig.eq_of_preset {name : String} {c : FieldConfig} (h : preset name = .ok c) :
    c = quantum ∨ c = hero ∨ c = ambient := by
  unfold preset at h
  split at h
  · cases h
    exact .inl rfl
  · cases h
    exact .inr (.inl rfl)
  · cases h
    exact .inr (.inr rfl)
  · cases h

theorem FieldConfig.Given.cases {c : FieldConfig} (h : c.Given) :
    c = quantum ∨ c = hero ∨ c = ambient := by
  obtain rfl | ⟨name, found⟩ := h
  · exact .inl rfl
  · exact eq_of_preset found

theorem FieldConfig.Given.valid {c : FieldConfig} (h : c.Given) : validate c = .ok () := by
  obtain rfl | rfl | rfl := h.cases
  · rfl
  · rfl
  · rfl

theorem FieldConfig.regular_iff {c : FieldConfig} : Recorded.Regular c ↔
    (∀ color ∈ c.palette, color.Opaque) ∧ c.backdrop.Regular ∧
      (∀ color ∈ c.waves.palette, color.Opaque) ∧ c.links.color.Opaque := by
  simp [Recorded.Regular, Recorded.parts, ownParts, records]

theorem FieldConfig.Given.regular {c : FieldConfig} (h : c.Given) : Recorded.Regular c := by
  rw [regular_iff]
  obtain rfl | rfl | rfl := h.cases
  · simp [quantum, Backdrop.Regular, Color.opaque_rgb, Color.indigo, Color.violet, Color.pink,
      Color.emerald, Color.amber, Color.black]
  · simp [hero, Backdrop.Regular, Color.opaque_rgb, Color.white, Color.indigo, Color.violet,
      Color.pink, Color.emerald, Color.amber, Color.black]
  · simp [ambient, Backdrop.Regular, Color.opaque_rgb, Color.white, Color.indigo]

theorem CircuitConfig.Given.valid {c : CircuitConfig} (h : c.Given) : validate c = .ok () := by
  obtain rfl := h
  rfl

theorem CircuitConfig.Given.regular {c : CircuitConfig} (h : c.Given) : Recorded.Regular c := by
  obtain rfl := h
  exact Recorded.regular_initial

end AnimatedCanvas
