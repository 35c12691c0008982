import ActorSurface.Invocation
import ActorSurface.Publish

/-!
One compile run: the input is read, an engine makes the generated text of it, warnings are reported and the
text is published at the output. Where any of this fails, nothing is left at the output or under its
temporary name, and the failure is reported, once.
-/

namespace ActorSurface

namespace Compile

open Publish (Intent Writes)

/-- How a compile run ends, and what its engine was asked, if it was asked at all. -/
structure Report where
  status : ExitStatus
  request : Option Engine.Request
  deriving DecidableEq, Repr

/-- The failure to read the input. -/
def readingFailure (invocation : Invocation) (fault : FileSystem.Fault) : Failure :=
  .ofCauses [fault.message, "reading " ++ invocation.file]

section

variable {Handle : Type}

/-- Reports a diagnostic about the input on the error stream. Where the stream does not take it, it is dropped. -/
def report (invocation : Invocation) (diagnostic : Diagnostic) : Program Handle Unit := do
  let _ ← Program.ofCall (.print .errors (diagnostic.text invocation.file))

/-- Publishes the output of an engine at the path that the invocation names. -/
def publishOutput (writes : Writes) (invocation : Invocation) (output : Engine.Output) :
    Program Handle (Except Failure Unit) := do
  let intent := Intent.ofTarget invocation.output
  let published ← Publish.publish intent (writes (Utf8.encode output.text))
  return published.mapError (·.failure intent)

/-- Asks an engine, reports its warnings and publishes its text. -/
def generate (engine : Engine) (writes : Writes) (invocation : Invocation) (request : Engine.Request) :
    Program Handle (Except Failure Unit) := do
  match (engine request).result with
  | .error failure => return .error failure
  | .ok output =>
    output.warnings.forM fun finding => report invocation (.warning finding)
    publishOutput writes invocation output

/-- Clears the output and the staged file away, reports the failure, and tells how the run ends. -/
def fail (invocation : Invocation) (failure : Failure) : Program Handle ExitStatus := do
  let intent := Intent.ofTarget invocation.output
  Publish.discard intent
  Publish.retract intent
  report invocation (.error failure)
  return failure.exitStatus

/-- How a run ends by the result of its work. -/
def conclude (invocation : Invocation) : Except Failure Unit → Program Handle ExitStatus
  | .ok () => return .success
  | .error failure => fail invocation failure

/-- A compile run. -/
def run (engine : Engine) (writes : Writes) (invocation : Invocation) : Program Handle Report := do
  match ← Program.ofCall (.readText invocation.input) with
  | .error fault => return ⟨← fail invocation (readingFailure invocation fault), none⟩
  | .ok text =>
    let request := Engine.Request.ofPaths text invocation.input invocation.output invocation.engineOptions
    let result ← generate engine writes invocation request
    return ⟨← conclude invocation result, some request⟩

end

end Compile

end ActorSurface
