import AnimatedCanvas.Document.Value
import AnimatedCanvas.Field

/-!
A field in numbers.
-/

namespace AnimatedCanvas

structure FieldStats where
  frame : Nat
  particles : Nat
  transient : Nat
  waves : Nat
  longestTrail : Nat
  meanSpeed : Float

def Particle.meanSpeed (ps : List Particle) : Float :=
  if ps.isEmpty then 0.0 else ps.foldl (fun sum p => sum + p.speed) 0.0 / ofCount ps.length

def ParticleField.stats {γ : Type} (f : ParticleField γ) : FieldStats where
  frame := f.frame
  particles := f.particles.length
  transient := f.particles.countP Particle.isTransient
  waves := f.waves.length
  longestTrail := f.particles.foldl (fun longest p => max longest p.trail.length) 0
  meanSpeed := Particle.meanSpeed f.particles

def FieldStats.value (s : FieldStats) : Value :=
  .record
    [("frame", .count s.frame), ("particles", .count s.particles), ("transient", .count s.transient),
      ("waves", .count s.waves), ("longest_trail", .count s.longestTrail),
      ("mean_speed", .real s.meanSpeed)]

end AnimatedCanvas
