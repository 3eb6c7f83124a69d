import AnimatedCanvas.CommandLine.Argument
import AnimatedCanvas.CommandLine.Operand

/-!
What a command line asks for. `Invocation.ofArguments` understands a whole command line; the first
thing that is wrong with it counts.
-/

namespace AnimatedCanvas.CommandLine

inductive Format where
  | text
  | json
deriving DecidableEq

inductive Key where
  | verbose | help | version
  | preset | config | overrides | width | height | frames | seed | click | pointer | format
  | tracks | gates
deriving DecidableEq

def Key.name : Key → String
  | .verbose => "--verbose"
  | .help => "--help"
  | .version => "--version"
  | .preset => "--preset"
  | .config => "--config"
  | .overrides => "--set"
  | .width => "--width"
  | .height => "--height"
  | .frames => "--frames"
  | .seed => "--seed"
  | .click => "--click"
  | .pointer => "--pointer"
  | .format => "--format"
  | .tracks => "--tracks"
  | .gates => "--gates"

def commonSwitches : List (Switch Key) :=
  [{ key := .verbose, long := "verbose", short := some 'v', takesValue := false },
    { key := .help, long := "help", short := some 'h', takesValue := false }]

def leadingSwitches : List (Switch Key) :=
  commonSwitches ++
    [{ key := .version, long := "version", short := some 'V', takesValue := false }]

def simulateSwitches : List (Switch Key) :=
  commonSwitches ++
    [{ key := .preset, long := "preset", short := some 'p' },
      { key := .config, long := "config", short := some 'c' },
      { key := .overrides, long := "set" },
      { key := .width, long := "width" },
      { key := .height, long := "height" },
      { key := .frames, long := "frames", short := some 'f' },
      { key := .seed, long := "seed", short := some 's' },
      { key := .click, long := "click" },
      { key := .pointer, long := "pointer" },
      { key := .format, long := "format" }]

def circuitSwitches : List (Switch Key) :=
  commonSwitches ++
    [{ key := .config, long := "config", short := some 'c' },
      { key := .tracks, long := "tracks" },
      { key := .gates, long := "gates" },
      { key := .seed, long := "seed", short := some 's' }]

structure SimulateOptions where
  preset : Option String := none
  /-- A configuration file in place of the preset. -/
  config : Option String := none
  overrides : List String := []
  width : Option Float := none
  height : Option Float := none
  frames : Option Nat := none
  seed : Option Nat := none
  clicks : List Point := []
  pointer : Option Point := none
  format : Option Format := none

namespace SimulateOptions

def presetName (o : SimulateOptions) : String := o.preset.getD "quantum"

def size (o : SimulateOptions) : Size := ⟨o.width.getD 800.0, o.height.getD 600.0⟩

def frameCount (o : SimulateOptions) : Nat := o.frames.getD 300

end SimulateOptions

structure CircuitOptions where
  config : Option String := none
  tracks : Option Nat := none
  gates : Option Nat := none
  seed : Option Nat := none

inductive Invocation where
  | help
  | version
  | preset (name : String)
  | simulate (options : SimulateOptions)
  | circuit (options : CircuitOptions)

namespace Invocation

/-- Why no more arguments are read: one of them asks for help or the version, or is wrong. -/
inductive Stop where
  | asks (invocation : Invocation)
  | error (error : UsageError)

def once {α : Type} (key : Key) (old : Option α) (new : Except Stop α) : Except Stop (Option α) := do
  let new ← new
  match old with
  | some _ => throw (.error (.repeated key.name))
  | none => return some new

def valued {α : Type} (key : Key) (text : String) (value : Option α) : Except Stop α :=
  match value with
  | some a => .ok a
  | none => .error (.error (.invalidValue key.name text))

def pathOf (text : String) : Except Stop String :=
  valued .config text (if text.isEmpty then none else some text)

def formatOf (text : String) : Except Stop Format :=
  valued .format text (if text = "text" then some .text else if text = "json" then some .json else none)

/-- A switch without a value. Verbosity changes nothing of what is answered. -/
def flag : Key → Except Stop Unit
  | .help => .error (.asks .help)
  | .version => .error (.asks .version)
  | _ => .ok ()

def simulateOption (o : SimulateOptions) (key : Key) (text : String) : Except Stop SimulateOptions := do
  match key with
  | .preset => return { o with preset := ← once key o.preset (.ok text) }
  | .config => return { o with config := ← once key o.config (pathOf text) }
  | .overrides => return { o with overrides := o.overrides ++ [text] }
  | .width => return { o with width := ← once key o.width (valued key text (extent text).toOption) }
  | .height =>
    return { o with height := ← once key o.height (valued key text (extent text).toOption) }
  | .frames => return { o with frames := ← once key o.frames (valued key text (natural? text)) }
  | .seed => return { o with seed := ← once key o.seed (valued key text (natural? text)) }
  | .click => return { o with clicks := o.clicks ++ [← valued key text (point text).toOption] }
  | .pointer =>
    return { o with pointer := ← once key o.pointer (valued key text (point text).toOption) }
  | .format => return { o with format := ← once key o.format (formatOf text) }
  | _ => throw (.error (.unexpectedValue key.name))

def circuitOption (o : CircuitOptions) (key : Key) (text : String) : Except Stop CircuitOptions := do
  match key with
  | .config => return { o with config := ← once key o.config (pathOf text) }
  | .tracks => return { o with tracks := ← once key o.tracks (valued key text (natural? text)) }
  | .gates => return { o with gates := ← once key o.gates (valued key text (natural? text)) }
  | .seed => return { o with seed := ← once key o.seed (valued key text (natural? text)) }
  | _ => throw (.error (.unexpectedValue key.name))

def collect {α : Type} (option : α → Key → String → Except Stop α)
    (operand : α → String → Except Stop α) : α → List (Item Key) → Except Stop α
  | a, [] => .ok a
  | a, .switch key :: rest => do
    flag key
    collect option operand a rest
  | a, .option key value :: rest => do collect option operand (← option a key value) rest
  | a, .operand text :: rest => do collect option operand (← operand a text) rest
  | _, .wrong error :: _ => .error (.error error)

def noOperand {α : Type} (_ : α) (text : String) : Except Stop α :=
  .error (.error (.unexpectedOperand text))

def noOption {α : Type} (_ : α) (key : Key) (_ : String) : Except Stop α :=
  .error (.error (.unexpectedValue key.name))

def presetOperand (name : Option String) (text : String) : Except Stop (Option String) :=
  match name with
  | some _ => .error (.error (.unexpectedOperand text))
  | none => .ok (some text)

def presetCommand (args : List String) : Except Stop Invocation := do
  match ← collect noOption presetOperand none (scan commonSwitches args) with
  | some name => return .preset name
  | none => throw (.error (.missingOperand "<NAME>"))

def simulateCommand (args : List String) : Except Stop Invocation := do
  return .simulate (← collect simulateOption noOperand {} (scan simulateSwitches args))

def circuitCommand (args : List String) : Except Stop Invocation := do
  return .circuit (← collect circuitOption noOperand {} (scan circuitSwitches args))

def helpCommand : List String → Except Stop Invocation
  | [] => .error (.asks .help)
  | ["preset"] | ["simulate"] | ["circuit"] | ["help"] => .error (.asks .help)
  | topic :: _ => .error (.error (.unexpectedOperand topic))

def command : List String → Except Stop Invocation
  | [] => .error (.error .missingCommand)
  | "preset" :: args => presetCommand args
  | "simulate" :: args => simulateCommand args
  | "circuit" :: args => circuitCommand args
  | "help" :: args => helpCommand args
  | name :: _ => .error (.error (.unexpectedOperand name))

def read (args : List String) : Except Stop Invocation := do
  let leading (arg : String) : Bool := isSwitch arg && arg != "--"
  collect noOption noOperand () (scan leadingSwitches (args.takeWhile leading))
  command (args.dropWhile leading)

def ofArguments (args : List String) : Except UsageError Invocation :=
  match read args with
  | .ok invocation => .ok invocation
  | .error (.asks invocation) => .ok invocation
  | .error (.error e) => .error e

end Invocation
end AnimatedCanvas.CommandLine
