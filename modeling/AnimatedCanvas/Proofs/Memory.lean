import AnimatedCanvas.Proofs.Circuit.Choices
import AnimatedCanvas.Proofs.Field.Choices

namespace AnimatedCanvas

theorem Memory.then_eq {α : Type} {reservation : Option Unit} {fits : Prop} [Decidable fits]
    (reserved : reservation = if fits then some () else none) (a : α) :
    (do reservation; return a : Option α) = if fits then some a else none := by
  rw [reserved]
  split <;> rfl

theorem Memory.foldlM_eq {σ α : Type} {step? : σ → α → Option σ} {step : σ → α → σ}
    {fits : α → Prop} [DecidablePred fits] (invariant : σ → Prop)
    (each : ∀ s a, invariant s → step? s a = if fits a then some (step s a) else none)
    (kept : ∀ s a, invariant s → invariant (step s a)) {s : σ} (start : invariant s) (items : List α) :
    items.foldlM step? s = if ∀ a ∈ items, fits a then some (items.foldl step s) else none := by
  induction items generalizing s with
  | nil => simp
  | cons a rest ih =>
      rw [List.foldlM_cons, each s a start, List.foldl_cons]
      by_cases first : fits a
      · simp only [first, List.forall_mem_cons, true_and, ↓reduceIte]
        exact ih (kept s a start)
      · simp [first]

namespace ParticleField

/-- The trails of `count` new particles find memory. -/
def HoldsTrails (c : FieldConfig) (count : Nat) : Prop :=
  count = 0 ∨ Memory.Holds Trail.pointBytes c.trail.cap

instance (c : FieldConfig) (count : Nat) : Decidable (HoldsTrails c count) :=
  inferInstanceAs (Decidable (_ ∨ _))

theorem reserveTrails?_eq (c : FieldConfig) (count : Nat) :
    reserveTrails? c count = if HoldsTrails c count then some () else none := by
  have trail : Trail.create? c.trail.cap =
      if Memory.Holds Trail.pointBytes c.trail.cap then some (.empty c.trail.cap) else none :=
    Memory.then_eq rfl _
  induction count with
  | zero => simp [reserveTrails?, HoldsTrails]
  | succ n ih =>
      rw [reserveTrails?, trail]
      by_cases room : Memory.Holds Trail.pointBytes c.trail.cap
      · simp [HoldsTrails, room, ih]
      · simp [HoldsTrails, room]

def HoldsField (c : FieldConfig) : Prop :=
  Memory.Holds Particle.bytes (c.targetCount + c.burst.count) ∧ HoldsTrails c c.targetCount

instance (c : FieldConfig) : Decidable (HoldsField c) := inferInstanceAs (Decidable (_ ∧ _))

theorem reserve?_of_valid {c : FieldConfig} (valid : c.validate = .ok ()) :
    reserve? c = if HoldsField c then some () else none := by
  simp only [reserve?, valid, Except.isOk, Except.toBool, Memory.reserve?, reserveTrails?_eq]
  by_cases particles : Memory.Holds Particle.bytes (c.targetCount + c.burst.count)
  · simp [HoldsField, particles]
  · simp [HoldsField, particles]

def clickTrails (c : FieldConfig) : Nat := if c.interactive then c.burst.count else 0

theorem reserveClick?_eq (c : FieldConfig) :
    reserveClick? c = if HoldsTrails c (clickTrails c) then some () else none := by
  unfold reserveClick? clickTrails
  split
  · exact reserveTrails?_eq c _
  · exact (if_pos (.inl rfl)).symm

section Fields

variable {γ : Type} [Sampler γ]

theorem create?_of_valid {config : FieldConfig} (valid : config.validate = .ok ()) (size : Size)
    (random : γ) : create? config size random =
      if HoldsField config then some (create config size random) else none :=
  Memory.then_eq (reserve?_of_valid valid) _

variable [Trigonometry]

def Call.trails (c : FieldConfig) : Call → Nat
  | .operation (.click _) => clickTrails c
  | .operation (.resize _) => c.targetCount
  | .populate => c.targetCount
  | .spawnBurst _ => c.burst.count
  | _ => 0

def call? (f : ParticleField γ) : Call → Option (ParticleField γ)
  | .operation (.click position) => f.click? position
  | .operation (.resize size) => f.resize? size
  | .populate => f.populate?
  | .spawnBurst source => f.spawnBurst? source
  | call => some (f.call call)

def callAll? (f : ParticleField γ) (calls : List Call) : Option (ParticleField γ) :=
  calls.foldlM call? f

theorem call?_eq (f : ParticleField γ) (call : Call) :
    f.call? call = if HoldsTrails f.config (call.trails f.config) then some (f.call call) else none := by
  have nothing : HoldsTrails f.config 0 := .inl rfl
  cases call with
  | operation operation =>
      cases operation with
      | click position => exact Memory.then_eq (reserveClick?_eq f.config) _
      | resize size => exact Memory.then_eq (reserveTrails?_eq f.config _) _
      | pointerMove position => exact (if_pos nothing).symm
      | pointerLeave => exact (if_pos nothing).symm
      | update => exact (if_pos nothing).symm
      | clear => exact (if_pos nothing).symm
  | populate => exact Memory.then_eq (reserveTrails?_eq f.config _) _
  | spawnWave center => exact (if_pos nothing).symm
  | spawnBurst source => exact Memory.then_eq (reserveTrails?_eq f.config _) _

theorem config_call (f : ParticleField γ) (call : Call) : (f.call call).config = f.config := by
  cases call with
  | operation operation => exact config_operate f operation
  | populate => rfl
  | spawnWave center => rfl
  | spawnBurst source => rfl

theorem callAll?_eq (f : ParticleField γ) (calls : List Call) :
    f.callAll? calls =
      if ∀ call ∈ calls, HoldsTrails f.config (call.trails f.config) then some (f.callAll calls)
      else none :=
  Memory.foldlM_eq (fun g => g.config = f.config)
    (fun g call same => by rw [← same]; exact call?_eq g call)
    (fun g call same => (config_call g call).trans same) rfl calls

end Fields

end ParticleField

namespace CircuitDiagram

variable {γ : Type} [Sampler γ]

def HoldsGates (c : CircuitConfig) : Prop := Memory.Holds GateEvent.bytes c.gateCount

instance (c : CircuitConfig) : Decidable (HoldsGates c) :=
  inferInstanceAs (Decidable (Memory.Holds _ _))

theorem generate?_eq (tracks : Nat) (c : CircuitConfig) (random : γ) :
    GateEvent.generate? tracks c random =
      if HoldsGates c then some (GateEvent.generate tracks c random) else none :=
  Memory.then_eq rfl _

theorem create?_of_valid {config : CircuitConfig} (valid : config.validate = .ok ()) (size : Size)
    (random : γ) : create? config size random =
      if HoldsGates config then some (create config size random) else none := by
  have reserved : reserve? config = if HoldsGates config then some () else none := by
    simp only [reserve?, valid]
    rfl
  exact Memory.then_eq reserved _

def Operation.draws : Operation → Bool
  | .regenerate => true
  | .resize _ => true
  | _ => false

def operate? (d : CircuitDiagram γ) : Operation → Option (CircuitDiagram γ)
  | .regenerate => d.regenerate?
  | .resize size => d.resize? size
  | operation => some (d.operate operation)

def operateAll? (d : CircuitDiagram γ) (operations : List Operation) : Option (CircuitDiagram γ) :=
  operations.foldlM operate? d

theorem operate?_eq (d : CircuitDiagram γ) (operation : Operation) :
    d.operate? operation =
      if operation.draws → HoldsGates d.config then some (d.operate operation) else none := by
  have drawn : GateEvent.reserve? d.config =
      if true → HoldsGates d.config then some () else none := by
    simp only [GateEvent.reserve?, Memory.reserve?, HoldsGates, true_imp_iff]
  cases operation with
  | regenerate => exact Memory.then_eq drawn _
  | resize size => exact Memory.then_eq drawn _
  | advance => exact (if_pos nofun).symm
  | clear => exact (if_pos nofun).symm

theorem config_operate (d : CircuitDiagram γ) (operation : Operation) :
    (d.operate operation).config = d.config := by
  cases operation with
  | advance =>
      simp only [operate, advance]
      split <;> rfl
  | regenerate => rfl
  | resize size => rfl
  | clear => rfl

theorem operateAll?_eq (d : CircuitDiagram γ) (operations : List Operation) :
    d.operateAll? operations =
      if ∀ operation ∈ operations, operation.draws → HoldsGates d.config then
        some (d.operateAll operations)
      else none :=
  Memory.foldlM_eq (fun e => e.config = d.config)
    (fun e operation same => by rw [← same]; exact operate?_eq e operation)
    (fun e operation same => (config_operate e operation).trans same) rfl operations

end CircuitDiagram
end AnimatedCanvas
