/-!
Arguments of a command: switches, options with a value, and operands.

A long switch is written `--name`, a short one `-n`, and short ones can share a dash. A value is the
next argument, or stands in the same one: `--name=value`, `-nvalue`, `-n=value`. An argument of its
own that begins with a dash is never a value. After `--` all arguments are operands.
-/

namespace AnimatedCanvas.CommandLine

inductive UsageError where
  | unknownSwitch (name : String)
  | missingValue (name : String)
  | unexpectedValue (name : String)
  | invalidValue (name value : String)
  | repeated (name : String)
  | unexpectedOperand (text : String)
  | missingOperand (name : String)
  | missingCommand
deriving DecidableEq

def UsageError.message : UsageError → String
  | .unknownSwitch name => "unexpected argument " ++ name
  | .missingValue name => "a value is required for " ++ name
  | .unexpectedValue name => "no value is expected for " ++ name
  | .invalidValue name value => "invalid value " ++ value ++ " for " ++ name
  | .repeated name => name ++ " cannot be used multiple times"
  | .unexpectedOperand text => "unexpected argument " ++ text
  | .missingOperand name => "missing argument " ++ name
  | .missingCommand => "a command is required"

/-- A switch that a command understands; `κ` says what it means. -/
structure Switch (κ : Type) where
  key : κ
  long : String
  short : Option Char := none
  takesValue : Bool := true

inductive Item (κ : Type) where
  | switch (key : κ)
  | option (key : κ) (value : String)
  | operand (text : String)
  /-- The arguments make no sense from here on. -/
  | wrong (error : UsageError)

variable {κ : Type}

/-- Whether an argument begins with a dash and is no operand. -/
def isSwitch (arg : String) : Bool :=
  match arg.toList with
  | '-' :: _ :: _ => true
  | _ => false

def splitLong (body : List Char) : String × Option String :=
  match body.span (· != '=') with
  | (name, []) => (String.ofList name, none)
  | (name, _ :: value) => (String.ofList name, some (String.ofList value))

def attached? : List Char → Option String
  | [] => none
  | '=' :: value => some (String.ofList value)
  | value => some (String.ofList value)

inductive Ending (κ : Type) where
  | complete
  /-- The value of an option is in the next argument. -/
  | awaits (key : κ) (name : String)

def shorts (switches : List (Switch κ)) : List Char → List (Item κ) × Ending κ
  | [] => ([], .complete)
  | c :: rest =>
    let name := String.ofList ['-', c]
    match switches.find? (·.short == some c) with
    | none => ([.wrong (.unknownSwitch name)], .complete)
    | some s =>
      if s.takesValue then
        match attached? rest with
        | some value => ([.option s.key value], .complete)
        | none => ([], .awaits s.key name)
      else
        let (items, ending) := shorts switches rest
        (.switch s.key :: items, ending)

def long (switches : List (Switch κ)) (body : List Char) : List (Item κ) × Ending κ :=
  let (name, value) := splitLong body
  let shown := "--" ++ name
  match switches.find? (·.long == name), value with
  | none, _ => ([.wrong (.unknownSwitch shown)], .complete)
  | some s, some value =>
    if s.takesValue then ([.option s.key value], .complete)
    else ([.wrong (.unexpectedValue shown)], .complete)
  | some s, none =>
    if s.takesValue then ([], .awaits s.key shown) else ([.switch s.key], .complete)

def switchItems (switches : List (Switch κ)) (arg : String) : List (Item κ) × Ending κ :=
  match arg.toList with
  | '-' :: '-' :: body => long switches body
  | _ :: body => shorts switches body
  | [] => ([], .complete)

def scan (switches : List (Switch κ)) : List String → List (Item κ)
  | [] => []
  | "--" :: operands => operands.map .operand
  | arg :: rest =>
    if isSwitch arg then
      match switchItems switches arg, rest with
      | (items, .complete), rest => items ++ scan switches rest
      | (items, .awaits key name), value :: rest =>
        if isSwitch value then items ++ [.wrong (.missingValue name)]
        else items ++ .option key value :: scan switches rest
      | (items, .awaits _ name), [] => items ++ [.wrong (.missingValue name)]
    else .operand arg :: scan switches rest

end AnimatedCanvas.CommandLine
