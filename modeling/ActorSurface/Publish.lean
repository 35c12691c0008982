import ActorSurface.Program

/-!
Publishing a text at a path, all or nothing. The text is staged under a temporary name beside the target,
what stands at the target is cleared away, the staged file is renamed to the target and made read-only. If
a step fails the staged file is discarded; behind staging, the target is retracted too. Two runs that
publish at one target at the same time are not kept apart.
-/

namespace ActorSurface

namespace Publish

open FileSystem (Answer)

/-- What the name of a staged file has behind the name of its target. -/
def temporarySuffix : String := ".tmp"

/-- The paths of a publication: where the text is staged, and where it is to stand. -/
structure Intent where
  temporary : Bytes
  target : Bytes
  deriving DecidableEq, Repr

/-- The intent to publish at a target. -/
def Intent.ofTarget (target : Bytes) : Intent :=
  ⟨target ++ Utf8.encode temporarySuffix, target⟩

/-- The steps that can fail. -/
inductive Step where
  | creating
  | writing
  | unprotecting
  | removing
  | renaming
  | protecting
  deriving DecidableEq, Repr

/-- How a step is told, with the paths it works on. -/
def Step.description (intent : Intent) : Step → String
  | .creating => "creating " ++ Utf8.lossy intent.temporary
  | .writing => "writing " ++ Utf8.lossy intent.temporary
  | .unprotecting => "unprotecting " ++ Utf8.lossy intent.target
  | .removing => "removing previous " ++ Utf8.lossy intent.target
  | .renaming => "renaming " ++ Utf8.lossy intent.temporary ++ " to " ++ Utf8.lossy intent.target
  | .protecting => "protecting " ++ Utf8.lossy intent.target

/-- The step at which a publication failed, and why. -/
structure Fault where
  step : Step
  cause : FileSystem.Fault
  deriving DecidableEq, Repr

/-- The wording of a fault: the step, and then its cause. -/
def Fault.message (intent : Intent) (fault : Fault) : String :=
  Failure.chain [fault.cause.message, fault.step.description intent]

/-- The failure that a fault means. -/
def Fault.failure (intent : Intent) (fault : Fault) : Failure :=
  .internal (fault.message intent)

/-- How the bytes of a text are split into the writes that store it. -/
abbrev Writes := Bytes → List Bytes

/-- All bytes in one write. -/
def inOneWrite : Writes := fun octets => [octets]

section

variable {Handle α : Type}

/-- A call as a step: what it answers in the way of a fault is told as a fault of the step. -/
def attempt (step : Step) (call : Call Handle (Answer α)) : ExceptT Fault (Program Handle) α :=
  ExceptT.mk do
    let answer ← Program.ofCall call
    return answer.mapError (Fault.mk step)

/-- Stages a text, given by the writes that store it, under the temporary name. -/
def stage (intent : Intent) (writes : List Bytes) : ExceptT Fault (Program Handle) Unit := do
  let file ← attempt .creating (.create intent.temporary)
  writes.forM fun octets => attempt .writing (.write file octets)
  attempt .writing (.sync file)

/-- Clears away what stands at the target, if anything does, read-only or not. -/
def clear (intent : Intent) : ExceptT Fault (Program Handle) Unit := do
  if ← ExceptT.lift (Program.ofCall (.isPresent intent.target)) then
    attempt .unprotecting (.setReadOnly intent.target false)
    attempt .removing (.unlink intent.target)

/-- Puts the staged file in place of what stands at the target. -/
def replace (intent : Intent) : ExceptT Fault (Program Handle) Unit := do
  clear intent
  attempt .renaming (.rename intent.temporary intent.target)
  attempt .protecting (.setReadOnly intent.target true)

/-- Removes the staged file, if it can be removed. -/
def discard (intent : Intent) : Program Handle Unit := do
  let _ ← Program.ofCall (.unlink intent.temporary)

/-- Removes what stands at the target, read-only or not, if it can be removed. -/
def retract (intent : Intent) : Program Handle Unit := do
  if ← Program.ofCall (.isPresent intent.target) then
    let _ ← Program.ofCall (.setReadOnly intent.target false)
    let _ ← Program.ofCall (.unlink intent.target)

/-- Publishes a text at the target of an intent. -/
def publish (intent : Intent) (writes : List Bytes) : Program Handle (Except Fault Unit) := do
  match ← (stage intent writes).run with
  | .error fault =>
    discard intent
    return .error fault
  | .ok () =>
    match ← (replace intent).run with
    | .error fault =>
      discard intent
      retract intent
      return .error fault
    | .ok () => return .ok ()

end

end Publish

end ActorSurface
