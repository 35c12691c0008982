import ActorSurface.FileSystem.Calls
import ActorSurface.Sink

/-!
Programs as sequences of calls on the world outside: files, and the two output streams. A program is data,
so that it can be run on a modelled world (`Program.run`), followed call by call, or performed on a host.
Running goes along with sequencing (`run_bind`).
-/

namespace ActorSurface

/-- The output streams of a process. -/
inductive Stream where
  | output
  | errors
  deriving DecidableEq, Repr

/-- One call on the world outside and the type of its answer. `Handle` stands for open files. -/
inductive Call (Handle : Type) : Type → Type where
  /-- Reads a file as text. -/
  | readText (path : Bytes) : Call Handle (FileSystem.Answer String)
  /-- Opens an empty file for writing. -/
  | create (path : Bytes) : Call Handle (FileSystem.Answer Handle)
  /-- Writes bytes at the end of an open file. -/
  | write (file : Handle) (octets : Bytes) : Call Handle (FileSystem.Answer Unit)
  /-- Waits until an open file is stored. -/
  | sync (file : Handle) : Call Handle (FileSystem.Answer Unit)
  /-- Asks whether anything stands at a path. -/
  | isPresent (path : Bytes) : Call Handle Bool
  /-- Takes away every right to write, or gives it to the owner. -/
  | setReadOnly (path : Bytes) (readOnly : Bool) : Call Handle (FileSystem.Answer Unit)
  /-- Removes a file or a link. -/
  | unlink (path : Bytes) : Call Handle (FileSystem.Answer Unit)
  /-- Moves a file or a link. -/
  | rename (source target : Bytes) : Call Handle (FileSystem.Answer Unit)
  /-- Writes a line to a stream, and tells whether the stream took all of it. -/
  | print (stream : Stream) (line : String) : Call Handle Bool

/-- A program: it is done, or it makes a call and goes on with the answer. -/
inductive Program (Handle : Type) (α : Type) : Type 1 where
  | done (result : α)
  | call {β : Type} (first : Call Handle β) (next : β → Program Handle α)

/-- A modelled world: a file system, and what the two streams hold. -/
structure World where
  files : FileSystem
  output : Sink
  errors : Sink

/-- What a call on files answers and leaves behind: a fault leaves the world as it was. -/
def World.settle {α : Type} (world : World) : FileSystem.Answer (α × FileSystem) → FileSystem.Answer α × World
  | .ok (answer, files) => (.ok answer, { world with files })
  | .error fault => (.error fault, world)

/-- Makes a call on a modelled world. Open files are known by their locations. -/
def Call.run {α : Type} : Call FileSystem.Location α → World → α × World
  | .readText path, world => (world.files.readText path, world)
  | .create path, world => world.settle (world.files.create path)
  | .write file octets, world => (.ok (), { world with files := world.files.write file octets })
  | .sync _, world => (.ok (), world)
  | .isPresent path, world => (world.files.isPresent path, world)
  | .setReadOnly path readOnly, world =>
    world.settle ((world.files.changeMode path (FileSystem.Mode.protect readOnly)).map ((), ·))
  | .unlink path, world => world.settle ((world.files.unlink path).map ((), ·))
  | .rename source target, world => world.settle ((world.files.rename source target).map ((), ·))
  | .print .output line, world =>
    let wrote := world.output.writeLine line
    (wrote.1, { world with output := wrote.2 })
  | .print .errors line, world =>
    let wrote := world.errors.writeLine line
    (wrote.1, { world with errors := wrote.2 })

namespace Program

variable {Handle α β : Type}

/-- The program that goes on with the result of another. -/
def bind : Program Handle α → (α → Program Handle β) → Program Handle β
  | .done result, next => next result
  | .call first rest, next => .call first fun answer => (rest answer).bind next

instance : Monad (Program Handle) where
  pure := .done
  bind := .bind

/-- The program that makes one call. -/
def ofCall (single : Call Handle α) : Program Handle α :=
  .call single .done

/-- Runs a program on a modelled world: its result, and the world behind it. -/
def run : Program FileSystem.Location α → World → α × World
  | .done result, world => (result, world)
  | .call first next, world =>
    let (answer, behind) := first.run world
    (next answer).run behind

@[simp]
theorem run_pure (result : α) (world : World) :
    (pure result : Program FileSystem.Location α).run world = (result, world) := rfl

@[simp]
theorem run_ofCall (single : Call FileSystem.Location α) (world : World) :
    (ofCall single).run world = single.run world := rfl

@[simp]
theorem run_bind (program : Program FileSystem.Location α) (next : α → Program FileSystem.Location β)
    (world : World) :
    (program >>= next).run world = (next (program.run world).1).run (program.run world).2 := by
  induction program generalizing world with
  | done result => rfl
  | call first rest ih => exact ih (first.run world).1 (first.run world).2

end Program

end ActorSurface
