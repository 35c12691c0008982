import ActorSurface.Compile
import ActorSurface.Engine.Surface

/-!
The whole program of the command line: it shows how it is used where no input and output are given, and
else echoes its arguments and runs one compilation with the built-in engine. A stream that takes neither
changes nothing of this.
-/

namespace ActorSurface

namespace Command

variable {Handle : Type}

/-- The program for a list of arguments, with a parser of those behind the paths. -/
def runWith (parser : Parser) (arguments : List Bytes) : Program Handle ExitStatus := do
  match Invocation.resolve parser arguments with
  | .error _ =>
    let _ ← Program.ofCall (.print .output usage)
    return .usage
  | .ok invocation =>
    let _ ← Program.ofCall (.print .output (Invocation.echo arguments))
    let report ← Compile.run Engine.surface Publish.inOneWrite invocation
    return report.status

/-- The program for a list of arguments. -/
def run (arguments : List Bytes) : Program Handle ExitStatus :=
  runWith .refusing arguments

end Command

end ActorSurface
