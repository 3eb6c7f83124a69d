import AnimatedCanvas.Circuit.Sequence
import AnimatedCanvas.CommandLine.Report
import AnimatedCanvas.CommandLine.Summary
import AnimatedCanvas.Random.Generator

/-!
The commands: print a preset, simulate a field, generate a gate sequence. `CommandLine.run` gives
what a command line writes and how it ends.
-/

namespace AnimatedCanvas.CommandLine

structure Reply where
  exitCode : UInt32
  output : String := ""
  errors : String := ""

def versionText : String := "qcanvas 0.2.0\n"

def helpText : String :=
  "Inspect and tune the homepage canvas animations without a browser\n\n" ++
    "Usage: qcanvas [OPTIONS] <COMMAND>\n\n" ++
    "Commands:\n" ++
    "  preset    Print a particle-field preset as YAML\n" ++
    "  simulate  Run a particle field off-screen and summarize the result\n" ++
    "  circuit   Generate a gate sequence and print it as JSON\n" ++
    "  help      Print this message or the help of the given subcommand(s)\n\n" ++
    "Options:\n" ++
    "  -v, --verbose...  Increase log verbosity (-v debug, -vv trace)\n" ++
    "  -h, --help        Print help\n" ++
    "  -V, --version     Print version\n"

def loaded {α : Type} [Configuration α] (files : FileStore) (path : String) : Except Report α :=
  (Configuration.load files path).mapError (.under ("failed to load " ++ path))

def overridden {α : Type} [Configuration α] (c : α) (document : String) : Except Report α :=
  (Configuration.withOverrides c document).mapError
    (.under ("failed to apply override " ++ Text.quoted document))

def presetHint : String := "available presets: " ++ ", ".intercalate FieldConfig.presetNames

def printPreset (name : String) : Except Report String := do
  let c ← (FieldConfig.preset name).mapError (.under presetHint)
  return Configuration.toYaml c

def fieldConfig (files : FileStore) (o : SimulateOptions) : Except Report FieldConfig := do
  let c ← match o.config with
    | some path => loaded files path
    | none => (FieldConfig.preset o.presetName).mapError .ofError
  o.overrides.foldlM overridden c

def sourceName (o : SimulateOptions) : String :=
  match o.config with
  | some path => path
  | none => String.ofList (o.presetName.toList.map Char.toLower)

variable [Trigonometry]

def simulate (files : FileStore) (clock : Nat) (o : SimulateOptions) : Except Report String := do
  let config ← fieldConfig files o
  let seed := o.seed.getD clock
  let simulation : Simulation Generator :=
    { config, size := o.size, pointer := o.pointer, clicks := o.clicks, frames := o.frameCount
      random := .ofSeed (UInt64.ofNat seed) }
  let outcome ← simulation.run.mapError .ofCanvasError
  let summary : Summary := { source := sourceName o, size := o.size, seed, outcome }
  return summary.text (o.format.getD .text)

def circuitConfig (files : FileStore) (o : CircuitOptions) : Except Report CircuitConfig := do
  let base : CircuitConfig ← match o.config with
    | some path => loaded files path
    | none => pure {}
  let c := { base with
    tracks := o.tracks.getD base.tracks, gateCount := o.gates.getD base.gateCount }
  c.validate.mapError .ofError
  return c

def generate (files : FileStore) (clock : Nat) (o : CircuitOptions) : Except Report String := do
  let c ← circuitConfig files o
  let random := Generator.ofSeed (UInt64.ofNat (o.seed.getD clock))
  let (events, _) := GateEvent.generate c.tracks c random
  return (GateEvent.listValue events).jsonPretty "" ++ "\n"

/-- Does what is asked for. Where no seed is given, the clock's reading is one. -/
def perform (files : FileStore) (clock : Nat) : Invocation → Except Report String
  | .help => .ok helpText
  | .version => .ok versionText
  | .preset name => printPreset name
  | .simulate o => simulate files clock o
  | .circuit o => generate files clock o

def run (files : FileStore) (clock : Nat) (args : List String) : Reply :=
  match Invocation.ofArguments args with
  | .error e => { exitCode := 2, errors := "error: " ++ e.message ++ "\n" }
  | .ok invocation =>
    match perform files clock invocation with
    | .ok output => { exitCode := 0, output }
    | .error report => { exitCode := 1, errors := report.text }

/-! ## Memory -/

/-- The exit code of a program that finds no memory. -/
def panicCode : UInt32 := 101

def reserve? (files : FileStore) : Invocation → Option Unit
  | .simulate o => ((fieldConfig files o).toOption.map (Simulation.reserve? · o.clicks)).getD (some ())
  | .circuit o => ((circuitConfig files o).toOption.map GateEvent.reserve?).getD (some ())
  | _ => some ()

def run? (files : FileStore) (clock : Nat) (args : List String) : Option Reply := do
  match Invocation.ofArguments args with
  | .ok invocation => reserve? files invocation
  | .error _ => some ()
  return run files clock args

end AnimatedCanvas.CommandLine
