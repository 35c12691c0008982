import ActorSurface.Text.Located

/-!
How a compilation fails and how a run ends. A failure is either blamed on a line of the input or
internal. Each failure has a code, a line, a text and an exit status.
-/

namespace ActorSurface

/-- How a run of the program ends. -/
inductive ExitStatus where
  | success
  | sourceError
  | internalError
  | usage
  deriving DecidableEq, Repr

/-- The exit code of the process. -/
def ExitStatus.code : ExitStatus → Nat
  | .success => 0
  | .sourceError => 1
  | .internalError => 3
  | .usage => 100

/-- Why a compilation failed: malformed input, blamed on a line, or anything without a place in the
    source. -/
inductive Failure where
  | source (line : Nat) (message : String)
  | internal (details : String)
  deriving DecidableEq, Repr

namespace Failure

/-- A failure blamed on a line of the input. Lines count from 1, so line 0 stands for line 1. -/
def atLine (line : Nat) (message : String) : Failure :=
  .source (max line 1) message

/-- A chain of causes in words, the innermost given first and the outermost told first. -/
def chain (causes : List String) : String :=
  ": ".intercalate causes.reverse

/-- The internal failure of a chain of causes, the innermost first. -/
def ofCauses (causes : List String) : Failure :=
  .internal (chain causes)

/-- The line that a failure is reported on. What has no place in the source is reported on line 1. -/
def line : Failure → Nat
  | .source line _ => line
  | .internal _ => 1

/-- The diagnostic code of a failure. -/
def code : Failure → String
  | .source _ _ => "FAC1000"
  | .internal _ => "FAC2000"

/-- The text of a failure. -/
def message : Failure → String
  | .source _ message => message
  | .internal details => "Internal " ++ details

/-- How a run that fails so ends. -/
def exitStatus : Failure → ExitStatus
  | .source _ _ => .sourceError
  | .internal _ => .internalError

end Failure

end ActorSurface
