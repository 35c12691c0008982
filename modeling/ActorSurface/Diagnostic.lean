import ActorSurface.Failure

/-!
Diagnostics in the shape that build tools pick up: `file(line): severity code: message`, each one on a
line of its own.
-/

namespace ActorSurface

/-- A finding that fails nothing: a message and its line. -/
abbrev Warning := Located String

/-- What is reported about a file. -/
inductive Diagnostic where
  | error (failure : Failure)
  | warning (finding : Warning)
  deriving DecidableEq, Repr

namespace Diagnostic

/-- The place that a diagnostic names: the file as given, and the line. -/
def place (file : String) (line : Nat) : String :=
  file ++ "(" ++ toString line ++ "): "

/-- The text of a diagnostic, without the newline that ends it. The line of a warning is told as it is. -/
def text (file : String) : Diagnostic → String
  | .error failure => place file failure.line ++ "error " ++ failure.code ++ ": " ++ failure.message
  | .warning finding => place file finding.line ++ "warning: " ++ finding.value

end Diagnostic

end ActorSurface
