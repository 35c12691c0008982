import ActorSurface.FileSystem.Basic

/-!
Following a path through the directories of a file system. The walk takes one name after the other,
follows the links it meets (a bounded number of them), and ends at a spot: a directory that the path ends
in by `.`, `..` or its start, or a name in a directory, whether or not an entry stands there. Where the
last name holds a link, the call that asks for the path decides what becomes of it (`Ending`).
-/

namespace ActorSurface

namespace FileSystem

/-- What a call makes of the last name of its path. `entry` means the entry itself, link or not; `status`
    follows a link only if a slash ends the path; `content` follows links; and `creation` follows them to
    where a file can be made, which no path that ends in a slash names. -/
inductive Ending where
  | entry
  | status
  | content
  | creation
  deriving DecidableEq, Repr

/-- Whether a link at the last name is followed. -/
def Ending.follows (ending : Ending) (slash : Bool) : Bool :=
  match ending with
  | .entry => false
  | .status => slash
  | .content => true
  | .creation => true

/-- Where a path leads: to a directory, or to a name in a directory, with the word whether that name has to
    be a directory's. -/
inductive Spot where
  | directory (location : Location)
  | named (directory : Location) (name : Name) (slash : Bool)
  deriving DecidableEq, Repr

/-- How many links one walk follows. -/
def linkLimit : Nat := 40

/-- How a walk goes on behind a link: from a directory, along names, to a slash at the end or none. -/
abbrev Onward := Location → List Name → Bool → Except SystemError Spot

/-- A walk from a directory along names. `onward` takes over behind a link. -/
def walkNames (files : FileSystem) (ending : Ending) (onward : Onward) (slash : Bool) :
    List Name → Location → Except SystemError Spot
  | [], here => .ok (.directory here)
  | name :: rest, here =>
    match files.get? here with
    | some (.directory mode) =>
      if !files.admits Mode.ownerSearch mode then .error .accessDenied
      else if name = dot then walkNames files ending onward slash rest here
      else if name = dotDot then walkNames files ending onward slash rest (Location.above here)
      else if rest = [] ∧ slash ∧ ending = .creation then .error .isDirectory
      else if longestName < name.length then .error .nameTooLong
      else
        match rest, files.get? (name :: here) with
        | [], some (.link body) =>
          if ending.follows slash then
            let path := Path.ofBytes body
            onward (if path.absolute then [] else here) path.names (slash || path.slash)
          else .ok (.named here name slash)
        | [], _ => .ok (.named here name slash)
        | _ :: _, none => .error .notFound
        | _ :: _, some (.link body) =>
          let path := Path.ofBytes body
          onward (if path.absolute then [] else here) (path.names ++ rest) slash
        | _ :: _, some _ => walkNames files ending onward slash rest (name :: here)
    | _ => .error .notDirectory

/-- A walk that follows at most so many links. -/
def walk (files : FileSystem) (ending : Ending) : Nat → Onward
  | 0, here, names, slash => walkNames files ending (fun _ _ _ => .error .linkLoop) slash names here
  | links + 1, here, names, slash => walkNames files ending (walk files ending links) slash names here

/-- The spot to which a path leads. -/
def resolve (files : FileSystem) (ending : Ending) (path : Bytes) : Answer Spot := do
  let path ← Path.ofArgument path
  let start := if path.absolute then [] else files.workingDirectory
  (files.walk ending linkLimit start path.names path.slash).mapError .system

/-- The entry to which a path leads, and its location. A path that ends in a slash leads to directories
    only. -/
def lookUp (files : FileSystem) (ending : Ending) (path : Bytes) : Answer (Location × Entry) := do
  let (location, slash) ←
    match ← files.resolve ending path with
    | .directory location => pure (location, false)
    | .named directory name slash => pure (name :: directory, slash)
  match files.get? location with
  | none => .error (.system .notFound)
  | some entry =>
    if slash && !entry.isDirectory then .error (.system .notDirectory) else .ok (location, entry)

end FileSystem

end ActorSurface
