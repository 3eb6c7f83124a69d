/-!
What can be wrong with a configuration.
-/

namespace AnimatedCanvas

inductive ConfigError where
  /-- The text is no document, or a value of it has the wrong shape. -/
  | unreadable
  | invalid (field : String) (reason : String)
  | unknownPreset (name : String)
  | io (reason : String)
deriving DecidableEq

def ConfigError.message : ConfigError → String
  | .unreadable => "parse error:"
  | .invalid field reason => "invalid value for `" ++ field ++ "`: " ++ reason
  | .unknownPreset name => "unknown preset: " ++ name
  | .io reason => "I/O error: " ++ reason

end AnimatedCanvas
