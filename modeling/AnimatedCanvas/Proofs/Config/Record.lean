import AnimatedCanvas.Proofs.Config.Codec

namespace AnimatedCanvas

open Reading

structure Part (α : Type) where
  {β : Type}
  name : String
  get : α → β
  codec : Codec β

class Recorded (α : Type) where
  parts : List (Part α)
  initial : α
  read? : {ν : Type} → Reading ν → ν → Option α
  value : α → Value
  nodup : (parts.map Part.name).Nodup
  regular_initial : ∀ p ∈ parts, p.codec.Regular (p.get initial)
  value_eq : ∀ c, value c = .record (parts.map fun p => (p.name, p.codec.value (p.get c)))
  read?_eq_some : ∀ {ν : Type} {r : Reading ν} {v : ν} {c : α}, read? r v = some c ↔
    ∃ fields, r.record? (parts.map Part.name) v = some fields ∧
      ∀ p ∈ parts, field fields p.name (p.codec.read? r) (p.get initial) = some (p.get c)

namespace Recorded

variable {α ν : Type} [Recorded α]

def Regular (c : α) : Prop := ∀ p ∈ parts, p.codec.Regular (p.get c)

theorem regular_of_read? {r : Reading ν} {v : ν} {c : α} (h : read? r v = some c) : Regular c := by
  obtain ⟨fields, -, read⟩ := read?_eq_some.1 h
  intro p member
  have read := read p member
  unfold field at read
  split at read
  · exact Option.some.inj read ▸ regular_initial p member
  · exact p.codec.regular_of_read? read

theorem read?_of_represents {r : Reading ν} {v : ν} {c : α} (regular : Regular c)
    (h : Represents r (value c) v) : read? r v = some c := by
  rw [value_eq] at h
  have names : (parts.map fun p => (p.name, p.codec.value (p.get c))).map Prod.fst =
      (parts (α := α)).map Part.name := by simp [Function.comp_def]
  have known := fun f member => names ▸ List.mem_map_of_mem (f := Prod.fst) (a := f) member
  obtain ⟨found, read, present, -⟩ := exists_record?_of_represents h (names ▸ nodup) known
  refine read?_eq_some.2 ⟨found, read, fun p member => ?_⟩
  obtain ⟨v, looked, node⟩ := present _ (List.mem_map_of_mem member)
  rw [field, looked]
  exact p.codec.read?_of_represents (regular p member) node

theorem represents_value (c : α) : Represents Value.reading (value c) (value c) := by
  rw [value_eq]
  refine Value.represents_record_self fun f member => ?_
  obtain ⟨p, -, rfl⟩ := List.mem_map.1 member
  exact p.codec.represents_value (p.get c)

variable (α) in
@[simps -fullyApplied]
def codec : Codec α where
  read? := read?
  value := value
  Regular := Regular
  regular_of_read? := regular_of_read?
  read?_of_represents := read?_of_represents
  represents_value := represents_value

end Recorded

namespace Part

variable {α : Type}

@[simp]
def count (name : String) (get : α → Nat) : Part α := ⟨name, get, .count⟩

@[simp]
def real (name : String) (get : α → Float) : Part α := ⟨name, get, .real⟩

@[simp]
def flag (name : String) (get : α → Bool) : Part α := ⟨name, get, .flag⟩

@[simp]
def span (name : String) (get : α → Span) : Part α := ⟨name, get, .span⟩

@[simp]
def palette (name : String) (get : α → List Color) : Part α := ⟨name, get, .palette⟩

@[simp]
def record {β : Type} [Recorded β] (name : String) (get : α → β) : Part α :=
  ⟨name, get, Recorded.codec β⟩

end Part

theorem bind_eq_some {α β : Type} {x : Option β} {f : β → Option α} {c : α} :
    (x >>= f) = some c ↔ ∃ b, x = some b ∧ f b = some c :=
  Option.bind_eq_some_iff

instance : Recorded TrailConfig where
  parts := [.count "cap" (·.cap), .real "opacity" (·.opacity), .real "scale" (·.scale)]
  initial := {}
  read? := TrailConfig.read?
  value := TrailConfig.value
  nodup := by decide
  regular_initial := by simp
  value_eq _ := rfl
  read?_eq_some := by
    intro ν r v c
    cases c
    simp [TrailConfig.read?, TrailConfig.names, Option.bind_eq_some_iff]

instance : Recorded PointerConfig where
  parts :=
    [⟨"force", (·.force), .force⟩, .real "radius" (·.radius), .real "strength" (·.strength)]
  initial := {}
  read? := PointerConfig.read?
  value := PointerConfig.value
  nodup := by decide
  regular_initial := by simp
  value_eq _ := rfl
  read?_eq_some := by
    intro ν r v c
    cases c
    simp [PointerConfig.read?, PointerConfig.names, Option.bind_eq_some_iff]

instance : Recorded BurstConfig where
  parts :=
    [.count "count" (·.count), .span "speed" (·.speed), .span "radius" (·.radius),
      .span "opacity" (·.opacity), .real "fade" (·.fade)]
  initial := {}
  read? := BurstConfig.read?
  value := BurstConfig.value
  nodup := by decide
  regular_initial := by simp
  value_eq _ := rfl
  read?_eq_some := by
    intro ν r v c
    cases c
    simp [BurstConfig.read?, BurstConfig.names, Option.bind_eq_some_iff]

instance : Recorded WaveConfig where
  parts :=
    [.real "chance" (·.chance), .span "max_radius" (·.maxRadius), .span "speed" (·.speed),
      .real "opacity" (·.opacity), .real "fade" (·.fade), ⟨"style", (·.style), .style⟩,
      .palette "palette" (·.palette), .real "line_width" (·.lineWidth)]
  initial := {}
  read? := WaveConfig.read?
  value := WaveConfig.value
  nodup := by decide
  regular_initial := by simp [Color.indigo, Color.opaque_rgb]
  value_eq _ := rfl
  read?_eq_some := by
    intro ν r v c
    cases c
    simp [WaveConfig.read?, WaveConfig.names, Option.bind_eq_some_iff]

instance : Recorded LinkConfig where
  parts :=
    [.real "distance" (·.distance), .real "opacity" (·.opacity), ⟨"color", (·.color), .color⟩,
      .real "width" (·.width)]
  initial := {}
  read? := LinkConfig.read?
  value := LinkConfig.value
  nodup := by decide
  regular_initial := by simp [Color.indigo, Color.opaque_rgb]
  value_eq _ := rfl
  read?_eq_some := by
    intro ν r v c
    cases c
    simp [LinkConfig.read?, LinkConfig.names, Option.bind_eq_some_iff]

instance : Recorded CircuitConfig where
  parts :=
    [.count "tracks" (·.tracks), .count "gate_count" (·.gateCount),
      .real "dual_chance" (·.dualChance), .span "time_step" (·.timeStep), .real "tail" (·.tail),
      .real "sweep_rate" (·.sweepRate), .real "padding" (·.padding)]
  initial := {}
  read? := CircuitConfig.read?
  value := CircuitConfig.value
  nodup := by decide
  regular_initial := by simp
  value_eq _ := rfl
  read?_eq_some := by
    intro ν r v c
    cases c
    simp [CircuitConfig.read?, CircuitConfig.names, Option.bind_eq_some_iff]

namespace FieldConfig

def ownParts : List (Part FieldConfig) :=
  [.count "target_count" (·.targetCount), .palette "palette" (·.palette),
    .span "radius" (·.radius), .span "speed" (·.speed), .span "opacity" (·.opacity),
    .real "damping" (·.damping), .real "retire_margin" (·.retireMargin),
    .flag "interactive" (·.interactive), .real "glow_scale" (·.glowScale),
    .flag "solid_core" (·.solidCore)]

def records : List (Part FieldConfig) :=
  [.record "trail" (·.trail), .record "pointer" (·.pointer), .record "burst" (·.burst),
    .record "waves" (·.waves), .record "links" (·.links)]

end FieldConfig

instance : Recorded FieldConfig where
  parts := FieldConfig.ownParts ++ ⟨"backdrop", (·.backdrop), .backdrop⟩ :: FieldConfig.records
  initial := {}
  read? := FieldConfig.read?
  value := FieldConfig.value
  nodup := by decide
  regular_initial := by
    simp [FieldConfig.ownParts, FieldConfig.records, Backdrop.Regular, Color.opaque_rgb,
      Color.indigo, Color.violet, Color.pink, Color.emerald, Color.amber, Color.black]
    exact ⟨Recorded.regular_initial, Recorded.regular_initial, Recorded.regular_initial,
      Recorded.regular_initial, Recorded.regular_initial⟩
  value_eq _ := rfl
  read?_eq_some := by
    intro ν r v c
    cases c
    unfold FieldConfig.read?
    simp [FieldConfig.names, FieldConfig.ownParts, FieldConfig.records, ↓bind_eq_some,
      Recorded.read?, -Bool.exists_bool]

end AnimatedCanvas
