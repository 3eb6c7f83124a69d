/-!
Random choices. A scene asks a `Sampler` for an index, a number of a range, or a yes or no; every
stream of 64-bit words is a sampler.

Choices that would be uneven are avoided by drawing again: a word that `accept` refuses is dropped.
A stream may refuse for ever, so the search stops after `attempts` words with a value of the range.
-/

namespace AnimatedCanvas

/-- A stream of 64-bit words. -/
class WordStream (σ : Type) where
  next : σ → UInt64 × σ

class Sampler (γ : Type) where
  /-- An index below `n`, for `n > 0`. -/
  below : Nat → γ → Nat × γ
  /-- A number of `[lo, hi)`, for finite `lo < hi` of finite distance. -/
  between : Float → Float → γ → Float × γ
  /-- True with probability `p`, for `0 ≤ p ≤ 1`. -/
  chance : Float → γ → Bool × γ

namespace Random

variable {σ : Type} [WordStream σ] {α : Type}

/-- How many words a search for an acceptable one may take. -/
def attempts : Nat := 4096

def firstAccepted (accept : UInt64 → Option α) (fallback : α) : Nat → σ → α × σ
  | 0, s => (fallback, s)
  | n + 1, s =>
    let (word, s) := WordStream.next s
    match accept word with
    | some a => (a, s)
    | none => firstAccepted accept fallback n s

/-- The index that a word stands for: the high half of its product with `n`. The words whose low
half lies beyond the last full round of `n` are refused. -/
def indexOf? (n : Nat) (word : UInt64) : Option Nat :=
  let product := word.toNat * n
  if product % Nat.pow 2 64 < n * Nat.pow 2 (63 - n.log2) then some (product / Nat.pow 2 64)
  else none

/-- The number of `[1, 2)` whose fraction is the upper 52 bits of a word. -/
def unitOf (word : UInt64) : Float := Float.ofBits ((0x3ff0000000000000 : UInt64) ||| (word >>> 12))

/-- The number of `[lo, hi)` that a word stands for; rounding up to `hi` is refused. -/
def numberOf? (lo hi : Float) (word : UInt64) : Option Float :=
  let x := (unitOf word - 1.0) * (hi - lo) + lo
  if x < hi then some x else none

/-- The least word that does not stand for true at probability `p < 1`. -/
def threshold (p : Float) : UInt64 := (p * 18446744073709551616.0).toUInt64

end Random

open AnimatedCanvas.Random in
instance {σ : Type} [WordStream σ] : Sampler σ where
  below n := firstAccepted (indexOf? n) 0 attempts
  between lo hi := firstAccepted (numberOf? lo hi) lo attempts
  chance p s :=
    if p == 1.0 then (true, s)
    else
      let (word, s) := WordStream.next s
      (word < threshold p, s)

namespace Random

variable {α β γ : Type}

def drawEach (draw : β → γ → α × γ) : List β → γ → List α × γ
  | [], g => ([], g)
  | b :: bs, g =>
    let (a, g) := draw b g
    let (as, g) := drawEach draw bs g
    (a :: as, g)

def drawMany (draw : γ → α × γ) (n : Nat) (g : γ) : List α × γ :=
  drawEach (fun _ => draw) (List.replicate n ()) g

def pick [Inhabited α] [Sampler γ] (items : List α) (g : γ) : α × γ :=
  let (i, g) := Sampler.below items.length g
  (items.getD i default, g)

end Random
end AnimatedCanvas
