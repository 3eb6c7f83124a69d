import AnimatedCanvas.Circuit.Gate
import AnimatedCanvas.Config.Circuit
import AnimatedCanvas.Memory

/-!
Random gate sequences, sorted by time.
-/

namespace AnimatedCanvas

/-- The place of a number in the total order of all of them: negative ones below, and those that are
not numbers at the ends. -/
def orderKey (x : Float) : UInt64 :=
  let bits := x.toBits
  if bits &&& 0x8000000000000000 = 0 then bits ||| 0x8000000000000000 else ~~~bits

namespace GateEvent

open AnimatedCanvas.Random

variable {γ : Type} [Sampler γ]

/-- Sorts events by time; those at the same time keep their order. -/
def sort (es : List GateEvent) : List GateEvent :=
  es.mergeSort fun a b => orderKey a.time ≤ orderKey b.time

/-- The target for a raw draw below `tracks - 1`: every track but the control's. -/
def targetOf (control raw : Nat) : Nat := if raw ≥ control then raw + 1 else raw

def dual (tracks : Nat) (time : Float) (g : γ) : GateEvent × γ :=
  let (kind, g) := pick GateKind.dual g
  let (track, g) := Sampler.below tracks g
  let (raw, g) := Sampler.below (tracks - 1) g
  ({ kind, track, target := some (targetOf track raw), time }, g)

def single (tracks : Nat) (time : Float) (g : γ) : GateEvent × γ :=
  let (kind, g) := pick GateKind.single g
  let (track, g) := Sampler.below tracks g
  ({ kind, track, target := none, time }, g)

def draw (tracks : Nat) (dualChance time : Float) (g : γ) : GateEvent × γ :=
  if 1 < tracks then
    let (isDual, g) := Sampler.chance dualChance g
    if isDual then dual tracks time g else single tracks time g
  else single tracks time g

def drawFrom (tracks : Nat) (c : CircuitConfig) : Nat → Float → γ → List GateEvent × γ
  | 0, _, g => ([], g)
  | n + 1, time, g =>
    let (e, g) := draw tracks c.dualChance time g
    let (step, g) := c.timeStep.sample g
    let (es, g) := drawFrom tracks c n (time + step) g
    (e :: es, g)

def generate (tracks : Nat) (c : CircuitConfig) (g : γ) : List GateEvent × γ :=
  if tracks = 0 then ([], g)
  else
    let (es, g) := drawFrom tracks c c.gateCount 0.0 g
    (sort es, g)

def reserve? (c : CircuitConfig) : Option Unit := Memory.reserve? bytes c.gateCount

/-- A sequence, with memory for all of its gates before the first of them is drawn. -/
def generate? (tracks : Nat) (c : CircuitConfig) (g : γ) : Option (List GateEvent × γ) := do
  reserve? c
  return generate tracks c g

end GateEvent
end AnimatedCanvas
