import AnimatedCanvas.Surface.Error

/-!
Reports of failures: what failed, and below it the causes, the nearest first. Several causes are
numbered; further lines of a text are indented under its first.
-/

namespace AnimatedCanvas.CommandLine

structure Report where
  headline : String
  causes : List String := []

def indented (margin text : String) : String := ("\n" ++ margin).intercalate (text.splitOn "\n")

def causeLines : List String → List String
  | [] => []
  | [cause] => ["    " ++ indented "    " cause]
  | causes => causes.zipIdx.map fun (cause, i) =>
    let number := toString i
    String.ofList (List.replicate (5 - number.length) ' ') ++ number ++ ": " ++
      indented "       " cause

namespace Report

def text (r : Report) : String :=
  let causes := match causeLines r.causes with
    | [] => ""
    | lines => "\n\nCaused by:\n" ++ "\n".intercalate lines
  "Error: " ++ r.headline ++ causes ++ "\n"

def chain : ConfigError → List String
  | .io reason => [(ConfigError.io reason).message, reason]
  | e => [e.message]

def ofError (e : ConfigError) : Report :=
  match chain e with
  | headline :: causes => { headline, causes }
  | [] => { headline := e.message }

def under (headline : String) (e : ConfigError) : Report := { headline, causes := chain e }

def ofCanvasError : CanvasError → Report
  | .config e => ofError e
  | e => { headline := e.message }

end Report
end AnimatedCanvas.CommandLine
