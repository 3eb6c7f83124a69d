import AnimatedCanvas.Config.Document

/-!
Loading configurations from texts and files, and layering overrides over them. Every way ends in
`validate`.
-/

namespace AnimatedCanvas

class Configuration (α : Type) where
  read? : {ν : Type} → Reading ν → ν → Option α
  value : α → Value
  validate : α → Except ConfigError Unit

instance : Configuration FieldConfig where
  read? := FieldConfig.read?
  value := FieldConfig.value
  validate := FieldConfig.validate

instance : Configuration CircuitConfig where
  read? := CircuitConfig.read?
  value := CircuitConfig.value
  validate := CircuitConfig.validate

def FileStore : Type := String → Except String ByteArray

namespace Configuration

variable {α : Type} [Configuration α]

def checked (c : Option α) : Except ConfigError α :=
  match c with
  | none => .error .unreadable
  | some c => do
    validate c
    return c

def ofYaml (text : String) : Except ConfigError α :=
  checked do
    let t ← Yaml.Tree.read? text
    read? t.reading t.root

def ofJson (text : String) : Except ConfigError α :=
  checked do read? Json.reading (← Json.read? text)

def layered (c : α) (patch : Value) : Except ConfigError α :=
  checked (read? Value.reading ((value c).merge patch))

def withOverrides (c : α) (text : String) : Except ConfigError α :=
  match (Yaml.Tree.read? text).bind Yaml.Tree.value? with
  | some patch => layered c patch
  | none => .error .unreadable

def toYaml (c : α) : String := (value c).yaml

def toJson (c : α) : String := (value c).json

def fileName (path : String) : List Char :=
  let cs := path.toList.reverse.dropWhile (· == '/')
  (cs.takeWhile (· != '/')).reverse

/-- What follows the last point of a file's name. A point at its beginning does not count. -/
def extension? (path : String) : Option String :=
  match (fileName path).reverse.span (· != '.') with
  | (_, []) => none
  | (_, [_]) => none
  | (after, _) => some (String.ofList after.reverse)

def isJsonPath (path : String) : Bool :=
  match extension? path with
  | some e => e.toList.map Char.toLower == ['j', 's', 'o', 'n']
  | none => false

/-- Loads a file: JSON where its name says so, and YAML otherwise. -/
def load (files : FileStore) (path : String) : Except ConfigError α :=
  match files path with
  | .error reason => .error (.io reason)
  | .ok bytes =>
    match String.fromUTF8? bytes with
    | none => .error (.io "stream did not contain valid UTF-8")
    | some text => if isJsonPath path then ofJson text else ofYaml text

end Configuration
end AnimatedCanvas
