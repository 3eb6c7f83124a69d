import AnimatedCanvas.Document.Reading

/-!
Gates on the timeline of a circuit, and their JSON form.
-/

namespace AnimatedCanvas

inductive GateKind where
  | h
  | x
  | y
  | z
  | ry
  | rz
  | cnot
  | cz
deriving DecidableEq

namespace GateKind

instance : Inhabited GateKind := ⟨.h⟩

def single : List GateKind := [.h, .x, .y, .z, .ry, .rz]

def dual : List GateKind := [.cnot, .cz]

def label : GateKind → String
  | .h => "H"
  | .x => "X"
  | .y => "Y"
  | .z => "Z"
  | .ry => "RY"
  | .rz => "RZ"
  | .cnot => "CNOT"
  | .cz => "CZ"

def isDual : GateKind → Bool
  | .cnot => true
  | .cz => true
  | _ => false

def ofLabel? (label : String) : Option GateKind :=
  (single ++ dual).find? (·.label == label)

end GateKind

structure GateEvent where
  kind : GateKind
  /-- The track of the gate, or of its control. -/
  track : Nat
  target : Option Nat
  time : Float

namespace GateEvent

/-- The bytes of an event in memory. -/
def bytes : Nat := 40

/-- The event as a document; without a target, none is written. -/
def value (e : GateEvent) : Value :=
  let target := match e.target with
    | some t => [("target", Value.count t)]
    | none => []
  .record
    ([("kind", .text e.kind.label), ("track", .count e.track)] ++ target ++
      [("time", .real e.time)])

def listValue (es : List GateEvent) : Value := .list (es.map value)

def toJson (es : List GateEvent) : String := (listValue es).json

def names : List String := ["kind", "track", "target", "time"]

def target? : Json → Option (Option Nat)
  | .null => some none
  | v => (Json.reading.count? v).map some

def read? (v : Json) : Option GateEvent := do
  let r := Json.reading
  let f ← r.record? names v
  return {
    kind := ← GateKind.ofLabel? (← Reading.required f "kind" r.word?)
    track := ← Reading.required f "track" r.count?
    target := ← Reading.field f "target" target? none
    time := ← Reading.required f "time" r.real? }

def ofJson? (text : String) : Option (List GateEvent) := do
  (← Json.reading.items? (← Json.read? text)).mapM read?

end GateEvent
end AnimatedCanvas
