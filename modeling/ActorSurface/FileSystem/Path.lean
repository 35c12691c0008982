import ActorSurface.FileSystem.Fault
import ActorSurface.Text.Utf8

/-!
Paths: names between slashes. Slashes that follow each other count as one; a slash in front starts the
path at the root, and a slash at its end asks for a directory.
-/

namespace ActorSurface

namespace FileSystem

/-- A name in a directory. -/
abbrev Name := Bytes

/-- The byte between two names of a path. -/
def separator : UInt8 := 0x2F

/-- The name that stands for the directory itself. -/
def dot : Name := [0x2E]

/-- The name that stands for the directory above. -/
def dotDot : Name := [0x2E, 0x2E]

/-- The longest name, in bytes. -/
def longestName : Nat := 255

/-- The longest path that a call takes, in bytes. -/
def longestPath : Nat := 4095

/-- A path by its parts. -/
structure Path where
  absolute : Bool
  names : List Name
  slash : Bool
  deriving DecidableEq, Repr

namespace Path

/-- The stretches between separators, empty ones included. -/
def stretches : Bytes → List Name
  | [] => [[]]
  | octet :: octets =>
    if octet = separator then [] :: stretches octets
    else
      match stretches octets with
      | [] => [[octet]]
      | name :: names => (octet :: name) :: names

/-- The parts of a path. -/
def ofBytes (octets : Bytes) : Path :=
  ⟨octets.head? = some separator, (stretches octets).filter (!·.isEmpty), octets.getLast? = some separator⟩

/-- The parts of a path that a call is given. -/
def ofArgument (octets : Bytes) : Answer Path :=
  if 0 ∈ octets then .error .nulInPath
  else if octets.isEmpty then .error (.system .notFound)
  else if longestPath < octets.length then .error (.system .nameTooLong)
  else .ok (ofBytes octets)

end Path

end FileSystem

end ActorSurface
