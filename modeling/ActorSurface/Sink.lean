import ActorSurface.Diagnostic
import ActorSurface.Text.Utf8

/-!
Sinks for text that may stop accepting it. A sink keeps the part of a write that fits and fails then. A
line that fails is dropped from that point on. Whether it failed is told, and a report does not ask.
-/

namespace ActorSurface

/-- What a sink has accepted, and how many more bytes it will accept, if there is a limit. -/
structure Sink where
  held : Bytes
  room : Option Nat
  deriving DecidableEq, Repr

namespace Sink

/-- A sink that accepts everything. -/
def unlimited : Sink :=
  ⟨[], none⟩

/-- A sink that accepts so many bytes in all. -/
def limited (capacity : Nat) : Sink :=
  ⟨[], some capacity⟩

/-- One write: whether all of it was accepted, and the sink behind it. -/
def write (sink : Sink) (octets : Bytes) : Bool × Sink :=
  match sink.room with
  | none => (true, { sink with held := sink.held ++ octets })
  | some room =>
    (octets.length ≤ room, ⟨sink.held ++ octets.take room, some (room - octets.length)⟩)

/-- Writes one after the other, up to the first that fails: whether all were accepted, and the sink behind
    them. -/
def writeAll (sink : Sink) : List Bytes → Bool × Sink
  | [] => (true, sink)
  | octets :: rest =>
    match sink.write octets with
    | (true, sink) => sink.writeAll rest
    | (false, sink) => (false, sink)

/-- Writes a line: its text, and then the newline. -/
def writeLine (sink : Sink) (line : String) : Bool × Sink :=
  sink.writeAll [Utf8.encode line, Utf8.encode "\n"]

/-- Reports a diagnostic about a file. Where the sink does not accept it, it is dropped. -/
def report (file : String) (diagnostic : Diagnostic) (sink : Sink) : Sink :=
  let (_, behind) := sink.writeLine (diagnostic.text file)
  behind

end Sink

end ActorSurface
