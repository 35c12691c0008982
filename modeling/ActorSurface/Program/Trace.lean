import ActorSurface.Program

/-!
The run of a program, call by call. A trace holds the calls of a run in order, each with the world on which
it is made; a run that is interrupted leaves one of the worlds of its trace, or the last (`worlds`). The
trace of a sequence is the trace of its parts (`trace_bind`).
-/

namespace ActorSurface

namespace Program

variable {α β : Type}

/-- A call that a run makes, and the world on which it is made. -/
structure Event where
  answer : Type
  call : Call FileSystem.Location answer
  before : World

/-- The calls of a run, in order. -/
def trace : Program FileSystem.Location α → World → List Event
  | .done _, _ => []
  | .call first next, world =>
    let (answer, behind) := first.run world
    ⟨_, first, world⟩ :: (next answer).trace behind

/-- The worlds that a run passes through: the one before each call, and the last. -/
def worlds (program : Program FileSystem.Location α) (world : World) : List World :=
  (program.trace world).map Event.before ++ [(program.run world).2]

@[simp]
theorem trace_pure (result : α) (world : World) :
    (pure result : Program FileSystem.Location α).trace world = [] := rfl

@[simp]
theorem trace_ofCall (single : Call FileSystem.Location α) (world : World) :
    (ofCall single).trace world = [⟨α, single, world⟩] := rfl

@[simp]
theorem trace_bind (program : Program FileSystem.Location α) (next : α → Program FileSystem.Location β)
    (world : World) :
    (program >>= next).trace world =
      program.trace world ++ (next (program.run world).1).trace (program.run world).2 := by
  induction program generalizing world with
  | done result => rfl
  | call first rest ih =>
    exact congrArg (⟨_, first, world⟩ :: ·) (ih (first.run world).1 (first.run world).2)

end Program

end ActorSurface
