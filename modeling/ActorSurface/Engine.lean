import ActorSurface.Diagnostic
import ActorSurface.Text.Utf8

/-!
The boundary between the compile run and the engine that makes the generated text. The run hands over a
request and gets an outcome back: an output, a failure, or a panic with its message. Every engine is a
function, so nothing else passes between the two.
-/

namespace ActorSurface

/-- A path as shown to engines: its text, with `/` for every backslash. -/
def normalizePath (path : Bytes) : String :=
  String.ofList ((Utf8.lossy path).toList.map fun char => if char = '\\' then '/' else char)

namespace Engine

/-- What the command line asks of an engine. -/
structure Options where
  warnActorWithoutWait : Bool := true
  deriving DecidableEq, Repr

/-- One file handed to an engine: its text, both paths with `/` separators, and the options. -/
structure Request where
  text : String
  inputPath : String
  outputPath : String
  options : Options
  deriving DecidableEq, Repr

/-- The request for a text read from one path, to be published at another. -/
def Request.ofPaths (text : String) (input output : Bytes) (options : Options) : Request :=
  ⟨text, normalizePath input, normalizePath output, options⟩

/-- What an engine makes of a file: the generated text, and warnings in order. -/
structure Output where
  text : String
  warnings : List Warning
  deriving DecidableEq, Repr

/-- How an engine ends. A panic has a message unless its payload is no text. -/
inductive Outcome where
  | produced (output : Output)
  | failed (failure : Failure)
  | panicked (message : Option String)
  deriving DecidableEq, Repr

/-- The output of an engine, or the failure that its ending means for the run. -/
def Outcome.result : Outcome → Except Failure Output
  | .produced output => .ok output
  | .failed failure => .error failure
  | .panicked message =>
    .error (.internal ("translation engine panicked: " ++ message.getD "unknown panic"))

end Engine

/-- An engine answers each request with an outcome. -/
abbrev Engine := Engine.Request → Engine.Outcome

end ActorSurface
