import AnimatedCanvas.Random

/-!
The seeded generator: xoshiro256++, its four words filled from the seed by eight outputs of a
32-bit permuted congruential generator.
-/

namespace AnimatedCanvas

/-- The state of a xoshiro256++ generator. -/
structure Generator where
  s0 : UInt64
  s1 : UInt64
  s2 : UInt64
  s3 : UInt64
deriving DecidableEq

namespace Generator

def rotateLeft (x k : UInt64) : UInt64 := (x <<< k) ||| (x >>> (64 - k))

def next (g : Generator) : UInt64 × Generator :=
  let s2 := g.s2 ^^^ g.s0
  let s3 := g.s3 ^^^ g.s1
  (rotateLeft (g.s0 + g.s3) 23 + g.s0,
    { s0 := g.s0 ^^^ s3
      s1 := g.s1 ^^^ s2
      s2 := s2 ^^^ (g.s1 <<< 17)
      s3 := rotateLeft s3 45 })

instance : WordStream Generator := ⟨next⟩

def seedWord (state : UInt64) : UInt64 × UInt64 :=
  let state := state * 6364136223846793005 + 11634580027462260723
  let x := (((state >>> 18) ^^^ state) >>> 27).toUInt32
  let r := (state >>> 59).toUInt32
  (((x >>> r) ||| (x <<< ((32 - r) % 32))).toUInt64, state)

/-- Two outputs of the seeding generator as one word, the first in the low half. -/
def seedPair (state : UInt64) : UInt64 × UInt64 :=
  let (low, state) := seedWord state
  let (high, state) := seedWord state
  (low ||| (high <<< 32), state)

def ofSeed (seed : UInt64) : Generator :=
  let (s0, state) := seedPair seed
  let (s1, state) := seedPair state
  let (s2, state) := seedPair state
  let (s3, _) := seedPair state
  { s0, s1, s2, s3 }

end Generator
end AnimatedCanvas
