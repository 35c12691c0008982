import ActorSurface.Command

/-!
The outer layer: the program of the command line, performed on the host. Every decision is made by
`Command.run`; here its calls are only handed to the host and the host's answers are handed back.
-/

namespace ActorSurface

namespace Host

open FileSystem (Answer Fault)

/-- The path that the host is given. -/
def path (octets : Bytes) : String :=
  Utf8.lossy octets

/-- The number and the description that come with an error of the host, if it has them. -/
def numbered? : IO.Error → Option (UInt32 × String)
  | .alreadyExists _ number details => some (number, details)
  | .otherError number details => some (number, details)
  | .resourceBusy number details => some (number, details)
  | .resourceVanished number details => some (number, details)
  | .unsupportedOperation number details => some (number, details)
  | .hardwareFault number details => some (number, details)
  | .unsatisfiedConstraints number details => some (number, details)
  | .illegalOperation number details => some (number, details)
  | .protocolError number details => some (number, details)
  | .timeExpired number details => some (number, details)
  | .interrupted _ number details => some (number, details)
  | .noFileOrDirectory _ number details => some (number, details)
  | .invalidArgument _ number details => some (number, details)
  | .permissionDenied _ number details => some (number, details)
  | .resourceExhausted _ number details => some (number, details)
  | .inappropriateType _ number details => some (number, details)
  | .noSuchThing _ number details => some (number, details)
  | .unexpectedEof => none
  | .userError _ => none

/-- The fault that an error of the host means. Some calls of the host negate the number. -/
def fault (error : IO.Error) : Fault :=
  match numbered? error with
  | some (number, description) => .ofNumber number.toInt32.toInt.natAbs description
  | none => .host (toString error)

/-- An action of the host, with its error as a fault. -/
def answer {α : Type} (action : IO α) : IO (Answer α) := do
  return (← action.toBaseIO).mapError fault

/-- Reading is allowed to everyone, and to no one anything else. -/
def readOnlyRights : IO.FileRight :=
  ⟨⟨true, false, false⟩, ⟨true, false, false⟩, ⟨true, false, false⟩⟩

/-- Everything is allowed to the owner, and all but writing to everyone. These are rights under which a
    directory can still be entered. -/
def writableRights : IO.FileRight :=
  ⟨⟨true, true, true⟩, ⟨true, false, true⟩, ⟨true, false, true⟩⟩

/-- Whether anything stands at a path: renaming a name to itself does nothing where there is one. -/
def isPresent (octets : Bytes) : IO Bool := do
  match ← answer (IO.FS.rename (path octets) (path octets)) with
  | .ok () => return true
  | .error (.system .accessDenied) => return true
  | .error (.system .busy) => return true
  | .error _ => return false

/-- Prints a line: whether the stream took it. -/
def print (stream : IO.FS.Stream) (line : String) : IO Bool := do
  return (← answer (do stream.putStrLn line; stream.flush)).isOk

/-- Makes a call on the host. The host sets whole modes only, so the mode that a file had is not kept. -/
def call {α : Type} : Call IO.FS.Handle α → IO α
  | .readText file => do
    let content ← answer (IO.FS.readBinFile (path file))
    return content.bind fun octets =>
      match Utf8.decode? octets.toList with
      | some text => .ok text
      | none => .error .notText
  | .create file => answer (IO.FS.Handle.mk (path file) .write)
  | .write file octets => answer (file.write ⟨octets.toArray⟩)
  | .sync file => answer file.flush
  | .isPresent file => isPresent file
  | .setReadOnly file readOnly =>
    answer (IO.setAccessRights (path file) (if readOnly then readOnlyRights else writableRights))
  | .unlink file => answer (IO.FS.removeFile (path file))
  | .rename source target => answer (IO.FS.rename (path source) (path target))
  | .print .output line => do print (← IO.getStdout) line
  | .print .errors line => do print (← IO.getStderr) line

/-- Performs a program on the host. -/
def perform {α : Type} : Program IO.FS.Handle α → IO α
  | .done result => return result
  | .call first next => do perform (next (← call first))

end Host

end ActorSurface

/-- The program of the command line. -/
def main (arguments : List String) : IO UInt32 := do
  let status ← ActorSurface.Host.perform
    (ActorSurface.Command.run (arguments.map ActorSurface.Utf8.encode))
  return status.code.toUInt32
