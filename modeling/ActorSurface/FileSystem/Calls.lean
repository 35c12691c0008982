import ActorSurface.FileSystem.Walk

/-!
The calls on files, as functions on the state of a file system. A call that answers a fault leaves the
state as it was. The rights of the owner are asked for: those of a file to open it, and those of the
directory that holds a name to add or remove that name.
-/

namespace ActorSurface

namespace FileSystem

/-- The text of a file. -/
def readText (files : FileSystem) (path : Bytes) : Answer String := do
  let (_, entry) ← files.lookUp .content path
  match entry with
  | .file mode content =>
    if files.admits Mode.ownerRead mode then
      match Utf8.decode? content with
      | some text => .ok text
      | none => .error .notText
    else .error (.system .accessDenied)
  | .directory mode =>
    .error (.system (if files.admits Mode.ownerRead mode then .isDirectory else .accessDenied))
  | .link _ => .error (.system .linkLoop)

/-- Opens an empty file for writing: a new one, or the one that the path leads to, emptied. Answers its
    location. -/
def create (files : FileSystem) (path : Bytes) : Answer (Location × FileSystem) := do
  match ← files.resolve .creation path with
  | .directory _ => .error (.system .isDirectory)
  | .named directory name _ =>
    let location := name :: directory
    match files.get? location with
    | some (.directory _) => .error (.system .isDirectory)
    | some (.link _) => .error (.system .linkLoop)
    | some (.file mode _) =>
      if files.admits Mode.ownerWrite mode then .ok (location, files.put location (.file mode []))
      else .error (.system .accessDenied)
    | none =>
      if files.mayChange directory then .ok (location, files.put location (.file Mode.newFile []))
      else .error (.system .accessDenied)

/-- Writes bytes at the end of an open file. -/
def write (files : FileSystem) (location : Location) (octets : Bytes) : FileSystem :=
  match files.get? location with
  | some entry => files.put location (entry.append octets)
  | none => files

/-- Whether anything stands where a path leads, links not followed. -/
def isPresent (files : FileSystem) (path : Bytes) : Bool :=
  match files.lookUp .status path with
  | .ok _ => true
  | .error _ => false

/-- Changes the mode of the entry that a path leads to. -/
def changeMode (files : FileSystem) (path : Bytes) (change : Mode → Mode) : Answer FileSystem := do
  let (location, entry) ← files.lookUp .content path
  .ok (files.put location (entry.mapMode change))

/-- Removes the name that a path ends in, of a file or a link. -/
def unlink (files : FileSystem) (path : Bytes) : Answer FileSystem := do
  match ← files.resolve .entry path with
  | .directory _ => .error (.system .isDirectory)
  | .named directory name slash =>
    match files.get? (name :: directory) with
    | none => .error (.system .notFound)
    | some entry =>
      if slash then .error (.system (if entry.isDirectory then .isDirectory else .notDirectory))
      else if !files.mayChange directory then .error (.system .accessDenied)
      else if entry.isDirectory then .error (.system .isDirectory)
      else .ok (files.erase (name :: directory))

/-- Moves the file or link that one path ends in to where another ends, in place of a file or link there.
    Directories are not moved. -/
def rename (files : FileSystem) (source target : Bytes) : Answer FileSystem := do
  let old ← files.resolve .entry source
  let new ← files.resolve .entry target
  match old, new with
  | .named oldDirectory oldName oldSlash, .named newDirectory newName newSlash =>
    match files.get? (oldName :: oldDirectory) with
    | none => .error (.system .notFound)
    | some entry =>
      if entry.isDirectory then .error (.system .isDirectory)
      else if oldSlash || newSlash then .error (.system .notDirectory)
      else if !files.mayChange oldDirectory || !files.mayChange newDirectory then
        .error (.system .accessDenied)
      else if (files.get? (newName :: newDirectory)).any Entry.isDirectory then
        .error (.system .isDirectory)
      else .ok ((files.erase (oldName :: oldDirectory)).put (newName :: newDirectory) entry)
  | _, _ => .error (.system .busy)

/-- Makes a directory. -/
def makeDirectory (files : FileSystem) (path : Bytes) (mode : Mode) : Answer FileSystem := do
  match ← files.resolve .entry path with
  | .directory _ => .error (.system .alreadyExists)
  | .named directory name _ =>
    if (files.get? (name :: directory)).isSome then .error (.system .alreadyExists)
    else if !files.mayChange directory then .error (.system .accessDenied)
    else .ok (files.put (name :: directory) (.directory mode))

/-- Makes a link with a given body. -/
def makeLink (files : FileSystem) (body path : Bytes) : Answer FileSystem := do
  let _ ← Path.ofArgument body
  match ← files.resolve .entry path with
  | .directory _ => .error (.system .alreadyExists)
  | .named directory name slash =>
    if (files.get? (name :: directory)).isSome then .error (.system .alreadyExists)
    else if slash then .error (.system .notFound)
    else if !files.mayChange directory then .error (.system .accessDenied)
    else .ok (files.put (name :: directory) (.link body))

end FileSystem

end ActorSurface
