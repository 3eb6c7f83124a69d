import AnimatedCanvas.CommandLine
import AnimatedCanvas.Proofs.Config.Obtained
import AnimatedCanvas.Proofs.Field.MeanSpeed
import AnimatedCanvas.Proofs.Memory
import AnimatedCanvas.Proofs.Simulation

/-!
# What a simulation reports

A command line that gets a configuration also gets a summary, if it finds memory (`run?_eq_some_iff`).
The mean speed is a number when the pointer is at a finite place or nowhere, and so are the clicks where
there is a pointer (`mean_speed_of_summary`). Extents are refused when they are not finite, but places
are not: a pointer whose coordinates are no numbers makes the mean speed the same.
-/

namespace AnimatedCanvas.CommandLine

open AnimatedCanvas.Configuration Binary64

theorem mapError_eq_ok {ε δ α : Type} {e : Except ε α} {f : ε → δ} {a : α} :
    e.mapError f = .ok a ↔ e = .ok a := by
  cases e <;> simp [Except.mapError]

theorem obtained_overridden {c config : FieldConfig} {overrides : List String}
    (obtained : Obtained FieldConfig.Given c) (layered : overrides.foldlM overridden c = .ok config) :
    Obtained FieldConfig.Given config := by
  induction overrides generalizing c with
  | nil =>
      obtain rfl := Except.ok.inj layered
      exact obtained
  | cons document rest ih =>
      simp only [List.foldlM_cons, bind, Except.bind] at layered
      split at layered
      next => cases layered
      next next step => exact ih (.withOverrides obtained (mapError_eq_ok.mp step)) layered

theorem obtained_fieldConfig {files : FileStore} {o : SimulateOptions} {config : FieldConfig}
    (found : fieldConfig files o = .ok config) : Obtained FieldConfig.Given config := by
  have layered {base : Except Report FieldConfig}
      (obtained : ∀ c, base = .ok c → Obtained FieldConfig.Given c)
      (found : (base >>= o.overrides.foldlM overridden) = .ok config) :
      Obtained FieldConfig.Given config := by
    cases base with
    | error report => cases found
    | ok c => exact obtained_overridden (obtained c rfl) found
  unfold fieldConfig at found
  cases chosen : o.config with
  | some path =>
      rw [chosen] at found
      exact layered (fun c read => .load (mapError_eq_ok.mp read)) found
  | none =>
      rw [chosen] at found
      exact layered (fun c read => .given (.inr ⟨o.presetName, mapError_eq_ok.mp read⟩)) found

theorem fieldConfig_of_preset (files : FileStore) {o : SimulateOptions} {config : FieldConfig}
    (unread : o.config = none) (plain : o.overrides = [])
    (preset : FieldConfig.preset o.presetName = .ok config) : fieldConfig files o = .ok config := by
  rw [fieldConfig, unread, plain]
  change (FieldConfig.preset o.presetName).mapError Report.ofError >>= _ = _
  rw [preset]
  rfl

def HoldsCommand (files : FileStore) : Invocation → Prop
  | .simulate o => ∀ config, fieldConfig files o = .ok config →
    ParticleField.HoldsField config ∧
      (o.clicks = [] ∨ ParticleField.HoldsTrails config (ParticleField.clickTrails config))
  | .circuit o => ∀ c, circuitConfig files o = .ok c → CircuitDiagram.HoldsGates c
  | _ => True

theorem reserve?_simulation_iff {config : FieldConfig} (valid : config.validate = .ok ())
    (clicks : List Point) : Simulation.reserve? config clicks = some () ↔
      ParticleField.HoldsField config ∧
        (clicks = [] ∨ ParticleField.HoldsTrails config (ParticleField.clickTrails config)) := by
  have each : (clicks.forM fun _ => ParticleField.reserveClick? config) = some () ↔
      clicks = [] ∨ ParticleField.HoldsTrails config (ParticleField.clickTrails config) := by
    rw [ParticleField.reserveClick?_eq]
    induction clicks with
    | nil => simp
    | cons click rest ih =>
        by_cases room : ParticleField.HoldsTrails config (ParticleField.clickTrails config)
        · simp_all
        · simp [room]
  rw [Simulation.reserve?, ParticleField.reserve?_of_valid valid, ← each]
  by_cases room : ParticleField.HoldsField config <;> simp [room]

theorem reserve?_iff (files : FileStore) (invocation : Invocation) :
    reserve? files invocation = some () ↔ HoldsCommand files invocation := by
  cases invocation with
  | simulate o =>
      cases found : fieldConfig files o with
      | error report => simp [reserve?, HoldsCommand, found, Except.toOption]
      | ok config =>
          have valid := (obtained_fieldConfig found).valid FieldConfig.Given.valid
          simp [reserve?, HoldsCommand, found, Except.toOption, reserve?_simulation_iff valid]
  | circuit o =>
      cases found : circuitConfig files o with
      | error report => simp [reserve?, HoldsCommand, found, Except.toOption]
      | ok c =>
          simp [reserve?, HoldsCommand, found, Except.toOption, GateEvent.reserve?, Memory.reserve?,
            CircuitDiagram.HoldsGates]
  | help => exact iff_of_true rfl trivial
  | version => exact iff_of_true rfl trivial
  | preset name => exact iff_of_true rfl trivial

/-- A command line that is understood gets its reply if and only if its command finds memory. -/
theorem run?_eq_some_iff [Trigonometry] (files : FileStore) (clock : Nat) (args : List String) :
    run? files clock args = some (run files clock args) ↔
      ∀ invocation, Invocation.ofArguments args = .ok invocation → HoldsCommand files invocation := by
  simp only [run?]
  cases Invocation.ofArguments args with
  | error e => simp
  | ok invocation =>
      cases reserved : reserve? files invocation with
      | none => simp [← reserve?_iff, reserved]
      | some => simp [← reserve?_iff, reserved]

section Summaries

variable [Trigonometry]

def simulation (o : SimulateOptions) (config : FieldConfig) (seed : Nat) : Simulation Generator :=
  { config, size := o.size, pointer := o.pointer, clicks := o.clicks, frames := o.frameCount
    random := .ofSeed (UInt64.ofNat seed) }

def summary (files : FileStore) (clock : Nat) (o : SimulateOptions) : Except Report Summary := do
  let config ← fieldConfig files o
  let seed := o.seed.getD clock
  let outcome ← (simulation o config seed).run.mapError .ofCanvasError
  return { source := sourceName o, size := o.size, seed, outcome }

theorem simulate_eq (files : FileStore) (clock : Nat) (o : SimulateOptions) :
    simulate files clock o = (summary files clock o).map (·.text (o.format.getD .text)) := by
  simp only [simulate, summary, simulation, bind, Except.bind]
  split
  · rfl
  · split
    · rfl
    · rfl

theorem summary_eq {files : FileStore} {clock : Nat} {o : SimulateOptions} {config : FieldConfig}
    (found : fieldConfig files o = .ok config) {outcome : Outcome}
    (ran : (simulation o config (o.seed.getD clock)).run = .ok outcome) :
    summary files clock o =
      .ok { source := sourceName o, size := o.size, seed := o.seed.getD clock, outcome } := by
  simp only [summary, found, ran, Except.mapError, bind, Except.bind]
  rfl

def Placed (o : SimulateOptions) : Prop :=
  ∀ source, o.pointer = some source → source.IsFinite ∧ ∀ position ∈ o.clicks, position.IsFinite

omit [Trigonometry] in
theorem clean_of_placed {o : SimulateOptions} (placed : Placed o) (config : FieldConfig) (seed : Nat) :
    ∀ operation ∈ (simulation o config seed).operations,
      operation.Clean (∃ source, o.pointer = some source) := by
  intro operation member
  rcases Simulation.mem_operations member with ⟨source, there, rfl⟩ | ⟨position, there, rfl⟩ | rfl
  · exact ⟨⟨source, there⟩, (placed source there).1⟩
  · exact fun ⟨source, pointer⟩ => (placed source pointer).2 position there
  · trivial

omit [Trigonometry] in
theorem countP_isClick (o : SimulateOptions) (config : FieldConfig) (seed : Nat) :
    (simulation o config seed).operations.countP ParticleField.Operation.isClick = o.clicks.length := by
  have moves : (o.pointer.map ParticleField.Operation.pointerMove).toList.countP
      ParticleField.Operation.isClick = 0 := by
    cases o.pointer <;> rfl
  have clicks : (o.clicks.map ParticleField.Operation.click).countP
      ParticleField.Operation.isClick = o.clicks.length := by
    simp [List.countP_map, Function.comp_def, ParticleField.Operation.isClick]
  simp only [Simulation.operations, Simulation.pointing, simulation, List.countP_append, moves, clicks,
    List.countP_replicate]
  simp [ParticleField.Operation.isClick]

open ParticleField in
/-- A command line that comes by a configuration, and that finds memory (`run?_eq_some_iff`), gives a
summary, and with the pointer and the clicks in their places its mean speed is a number. All particles can
be counted in a machine word. A pointer whose coordinates are no numbers takes a single frame to make the
mean speed the same. -/
theorem mean_speed_of_summary (files : FileStore) (clock : Nat) (o : SimulateOptions)
    (config : FieldConfig) (found : fieldConfig files o = .ok config) :
    ∃ s, summary files clock o = .ok s ∧
      simulate files clock o = .ok (s.text (o.format.getD .text)) ∧
      (Placed o → (o.clicks ≠ [] → Trigonometry.Total) →
        config.targetCount + o.clicks.length * config.burst.count < 2 ^ 64 →
        s.outcome.stats.meanSpeed.isNaN = false) ∧
      ∀ source, o.pointer = some source → source.x.isNaN = true ∨ source.y.isNaN = true →
        config.interactive = true → 0 < config.targetCount → 0 < o.frameCount →
        s.outcome.stats.meanSpeed.isNaN = true := by
  have valid := (obtained_fieldConfig found).valid FieldConfig.Given.valid
  obtain ⟨start, drawCalls, created, ran⟩ := (simulation o config (o.seed.getD clock)).run_eq valid
  have new : start.New config := new_of_create valid created
  have reported := summary_eq found ran
  refine ⟨_, reported, ?_, fun placed total room => ?_, ?_⟩
  · rw [simulate_eq, reported]
    rfl
  · apply isNaN_meanSpeed_play (new.rolling _) (clean_of_placed placed config _)
    · intro position member
      rcases Simulation.mem_operations member with ⟨_, _, other⟩ | ⟨_, there, _⟩ | other
      · cases other
      · exact total (List.ne_nil_of_mem there)
      · cases other
    · intro size member
      rcases Simulation.mem_operations member with ⟨_, _, other⟩ | ⟨_, _, other⟩ | other <;> cases other
    · rw [countP_isClick, new.length, new.config]
      exact room
  · intro source pointer nowhere interactive some later
    obtain ⟨n, frames⟩ := Nat.exists_eq_succ_of_ne_zero later.ne'
    have operations : (simulation o config (o.seed.getD clock)).operations =
        .pointerMove source :: (o.clicks.map .click ++ List.replicate n .update) ++ [.update] := by
      simp [Simulation.operations, Simulation.pointing, simulation, pointer, frames,
        List.replicate_succ']
    have quiet : ∀ operation ∈ o.clicks.map ParticleField.Operation.click ++ List.replicate n .update,
        operation.isClick = true ∨ operation = .update := by
      simp only [List.forall_mem_append, List.forall_mem_map, List.mem_replicate]
      exact ⟨fun _ _ => .inl rfl, fun _ same => .inr same.2⟩
    obtain ⟨same, -, populated, -⟩ := new
    rw [← same] at interactive some
    dsimp only
    rw [operations]
    exact poisoned_meanSpeed_play populated some interactive nowhere quiet

end Summaries

theorem mean_speed_of_summary_pointed :
    let files : FileStore := fun _ => .error "no such file"
    let o : SimulateOptions :=
      { overrides := ["burst: {count: 1}"], pointer := some ⟨10.0, 20.0⟩
        clicks := [⟨100.0, 100.0⟩, ⟨-5.0, 1.0e300⟩], frames := some 3 }
    letI : Trigonometry := ⟨fun _ => 0.0, fun _ => 1.0⟩
    ∃ config, fieldConfig files o = .ok config ∧ config.burst.count = 1 ∧
      ∃ s, summary files 7 o = .ok s ∧ simulate files 7 o = .ok (s.text .text) ∧
        s.outcome.stats.meanSpeed.isNaN = false := by
  intro files o
  let trigonometry : Trigonometry := ⟨fun _ => 0.0, fun _ => 1.0⟩
  have computed : (match fieldConfig files o with
      | .ok config => config.burst.count == 1 && config.targetCount == 100
      | .error _ => false) = true := by
    decide +kernel
  split at computed
  next config found =>
    simp only [Bool.and_eq_true, beq_iff_eq] at computed
    obtain ⟨single, resting⟩ := computed
    obtain ⟨s, reported, written, number, -⟩ := mean_speed_of_summary files 7 o config found
    have placed : Placed o := by
      intro source same
      obtain rfl := Option.some.inj same
      simp only [o, List.forall_mem_cons, List.not_mem_nil, Point.IsFinite, false_implies, implies_true,
        and_true]
      decide +kernel
    have total : Trigonometry.Total := fun _ _ =>
      ⟨show (0.0 : Float).isFinite = true from rfl, show (1.0 : Float).isFinite = true from rfl⟩
    have room : config.targetCount + o.clicks.length * config.burst.count < 2 ^ 64 := by
      rw [single, resting]
      decide +kernel
    exact ⟨config, found, single, s, reported, written, number placed (fun _ => total) room⟩
  next => cases computed

theorem poisoned_summary :
    let files : FileStore := fun _ => .error "no such file"
    let args := ["simulate", "--set", "target_count: 1\nspeed: [0.0, 0.0]\n", "--frames", "1",
      "--seed", "1", "--pointer", "NaN,NaN"]
    ∃ o s, Invocation.ofArguments args = .ok (.simulate o) ∧ summary files 0 o = .ok s ∧
      s.outcome.stats.meanSpeed.isNaN = true := by
  intro files args
  have computed : (match Invocation.ofArguments args with
      | .ok (.simulate o) =>
        match summary files 0 o with
        | .ok s => s.outcome.stats.meanSpeed.isNaN
        | .error _ => false
      | _ => false) = true := by
    decide +kernel
  split at computed
  next o understood =>
    split at computed
    next s reported => exact ⟨o, s, understood, reported, computed⟩
    next => cases computed
  next => cases computed

end AnimatedCanvas.CommandLine
