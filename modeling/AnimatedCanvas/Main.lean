import AnimatedCanvas.CommandLine

/-!
The program: reads the configuration file, if a command line names one, and the clock.
-/

namespace AnimatedCanvas.CommandLine

def namedFile? : Invocation → Option String
  | .simulate o => o.config
  | .circuit o => o.config
  | _ => none

/-- A reason with the number that the system has for it. Some of the numbers come negated. -/
def withCode (details : String) (code : UInt32) : String :=
  let number := if code < 0x80000000 then code else -code
  details.capitalize ++ " (os error " ++ toString number ++ ")"

def failureReason : IO.Error → String
  | .noFileOrDirectory _ code details => withCode details code
  | .permissionDenied _ code details => withCode details code
  | .inappropriateType _ code details => withCode details code
  | .invalidArgument _ code details => withCode details code
  | .noSuchThing _ code details => withCode details code
  | .resourceExhausted _ code details => withCode details code
  | e => toString e

def readStore (path : String) : IO FileStore := do
  try
    let bytes ← IO.FS.readBinFile path
    return fun _ => .ok bytes
  catch e => return fun _ => .error (failureReason e)

end AnimatedCanvas.CommandLine

open AnimatedCanvas AnimatedCanvas.CommandLine

def main (args : List String) : IO UInt32 := do
  let files ← match (Invocation.ofArguments args).toOption.bind namedFile? with
    | some path => readStore path
    | none => pure fun _ => .error ""
  let clock ← IO.monoNanosNow
  match run? files clock args with
  | some reply =>
    (← IO.getStdout).putStr reply.output
    (← IO.getStderr).putStr reply.errors
    return reply.exitCode
  | none =>
    (← IO.getStderr).putStr "capacity overflow\n"
    return panicCode
