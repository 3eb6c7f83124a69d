import AnimatedCanvas.CommandLine.Invocation
import AnimatedCanvas.Decimal.Fixed
import AnimatedCanvas.Simulation

/-!
The summary of a simulation, as lines of text or as JSON.
-/

namespace AnimatedCanvas.CommandLine

structure Summary where
  /-- The preset's name, or the file's. -/
  source : String
  size : Size
  seed : Nat
  outcome : Outcome

namespace Summary

def value (s : Summary) : Value :=
  .record
    [("preset", .text s.source), ("width", .real s.size.width), ("height", .real s.size.height),
      ("seed", .count s.seed), ("draw_calls", .count s.outcome.drawCalls),
      ("stats", s.outcome.stats.value)]

def lines (s : Summary) : List String :=
  let stats := s.outcome.stats
  ["preset:     " ++ s.source,
    "surface:    " ++ s.size.text,
    "seed:       " ++ toString s.seed,
    "frames:     " ++ toString stats.frame,
    "particles:  " ++ toString stats.particles ++ " (" ++ toString stats.transient ++ " transient)",
    "waves:      " ++ toString stats.waves,
    "trail:      " ++ toString stats.longestTrail,
    "mean speed: " ++ Decimal.fixed 3 stats.meanSpeed,
    "draw calls: " ++ toString s.outcome.drawCalls]

def text (s : Summary) : Format → String
  | .text => String.join (s.lines.map (· ++ "\n"))
  | .json => s.value.jsonPretty "" ++ "\n"

end Summary
end AnimatedCanvas.CommandLine
