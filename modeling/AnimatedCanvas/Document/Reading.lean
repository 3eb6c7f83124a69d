import AnimatedCanvas.Document.Json
import AnimatedCanvas.Document.YamlScalar

/-!
Reading the parts of a document at the types they are wanted at.

A configuration can come from YAML, from JSON, or from a document value that overrides have been
layered over. The three differ in what counts as a number, a record or a name. A `Reading` says how
nodes of one kind are read, so each configuration is decoded by one function for all of them.
-/

namespace AnimatedCanvas

inductive Collection (ν : Type) where
  | list (items : List ν)
  | map (entries : List (ν × ν))

structure Reading (ν : Type) where
  count? : ν → Option Nat
  real? : ν → Option Float
  flag? : ν → Option Bool
  text? : ν → Option String
  word? : ν → Option String
  items? : ν → Option (List ν)
  /-- The fields of a record under their names; unknown ones may be among them. -/
  fields? : List String → ν → Option (List (String × ν))
  collection? : ν → Option (Collection ν)
  /-- A part of a collection as a value without local tags. -/
  value? : ν → Option Value

namespace Reading

variable {ν α : Type}

/-- The fields with known names, none of which may come twice. -/
def known? (names : List String) (fields : List (String × ν)) : Option (List (String × ν)) :=
  let known := fields.filter fun (name, _) => names.contains name
  if (known.map (·.1)).Nodup then some known else none

def record? (r : Reading ν) (names : List String) (v : ν) : Option (List (String × ν)) := do
  known? names (← r.fields? names v)

def field (fields : List (String × ν)) (name : String) (read : ν → Option α) (default : α) :
    Option α :=
  match fields.lookup name with
  | none => some default
  | some v => read v

def required (fields : List (String × ν)) (name : String) (read : ν → Option α) : Option α := do
  read (← fields.lookup name)

/-- Fields written in order, without their names; there must not be more than names. -/
def positional? (names : List String) (items : List ν) : Option (List (String × ν)) :=
  if items.length ≤ names.length then some (names.zip items) else none

end Reading

/-! ## YAML -/

namespace Yaml

def Node.isAbsent : Node → Bool
  | .scalar _ .plain "" => true
  | _ => false

/-- The text of a scalar that may be read as a number or truth value: a plain one, or a literal one
under the tag of that kind. -/
def Node.bareText? (kind : String) : Node → Option String
  | .scalar tag style s =>
    if style = .plain ∨ (style = .literal ∧ tag = some kind) then some s else none
  | _ => none

def Node.text? : Node → Option String
  | .scalar _ _ s => some s
  | _ => none

/-- A name stands for itself, or in a local tag over nothing. -/
def Node.word? : Node → Option String
  | .scalar tag style s =>
    match localName? tag with
    | none => some s
    | some name =>
      if style = .plain ∧ (s = "" ∨ isNullText s) then some name else none
  | _ => none

/-- How nodes of a YAML tree are read. Aliases are followed, and a record or list that was left out
is empty. -/
def Tree.reading (t : Tree) : Reading Node where
  count? v := do naturalText? (← (← t.follow? v).bareText? wholeTag)
  real? v := do realText? (← (← t.follow? v).bareText? realTag)
  flag? v := do flagText? (← (← t.follow? v).bareText? flagTag)
  text? v := do (← t.follow? v).text?
  word? v := do (← t.follow? v).word?
  items? v := do
    match ← t.follow? v with
    | .list _ items => some items
    | node => if node.isAbsent then some [] else none
  fields? _ v := do
    match ← t.follow? v with
    | .map _ entries => entries.mapM fun (k, v) => do return (← (← t.follow? k).text?, v)
    | node => if node.isAbsent then some [] else none
  collection? v := do
    match ← t.follow? v with
    | .list tag items => if (localName? tag).isNone then some (.list items) else none
    | .map tag entries => if (localName? tag).isNone then some (.map entries) else none
    | _ => none
  value? v := do
    let (content, _) ← (t.valueOf? (maxDepth - 2) v).run t.budget
    if content.hasTag then none else some content

end Yaml

/-! ## JSON -/

namespace Json

def maxInnerDepth : Nat := 125

/-- How JSON values are read. Records may be written as arrays of their fields in order, and a name
also as an object with a null under it. -/
def reading : Reading Json where
  count?
    | .number n => n.toNat?
    | _ => none
  real?
    | .number n => n.toFloat?
    | _ => none
  flag?
    | .flag b => some b
    | _ => none
  text?
    | .text s => s
    | _ => none
  word?
    | .text s => s
    | .object [(key, .null)] => key
    | _ => none
  items?
    | .list items => some items
    | _ => none
  fields? names
    | .object entries => entries.mapM fun (key, v) => do return (← key, v)
    | .list items => Reading.positional? names items
    | _ => none
  collection?
    | .object entries => some (.map (entries.map fun (key, v) => (.text key, v)))
    | .list items => some (.list items)
    | _ => none
  value? := toValue? maxInnerDepth

end Json

/-! ## Values -/

namespace Value

def bare : Value → Value
  | .tagged _ content => content.bare
  | v => v

/-- How document values are read. Tags do not matter, except for names and in tagged records. -/
def reading : Reading Value where
  count? v :=
    match v.bare with
    | .number (.natural n) => some n
    | _ => none
  real? v :=
    match v.bare with
    | .number n => some n.toFloat
    | _ => none
  flag? v :=
    match v.bare with
    | .flag b => some b
    | _ => none
  text? v :=
    match v.bare with
    | .text s => some s
    | _ => none
  word?
    | .tagged tag .null => some tag
    | .text s => some s
    | _ => none
  items? v :=
    match v.bare with
    | .list items => some items
    | .null => some []
    | _ => none
  fields? _ v :=
    match v.bare with
    | .map entries => entries.mapM fun (k, v) =>
        match k.bare with
        | .text name => some (name, v)
        | _ => none
    | .null => some []
    | _ => none
  collection?
    | .list items => some (.list items)
    | .map entries => some (.map entries)
    | _ => none
  value? v := if v.hasTag then none else some v

end Value
end AnimatedCanvas
