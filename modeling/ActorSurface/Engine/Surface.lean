import ActorSurface.Actor.Scan
import ActorSurface.Engine.Layout

/-!
The built-in engine. It answers for the actor surface of a file (`Actor.scan`), warns about actors that
never wait, and passes the source on in the layout of a generated file.
-/

namespace ActorSurface

/-- The failure that a fault of the scan means. -/
def Failure.ofFault (fault : Located Actor.Fault) : Failure :=
  .atLine fault.line fault.value.message

namespace Actor.Declaration

/-- Whether a declaration has a body that never waits. -/
def isIdle (declaration : Declaration) : Bool :=
  declaration.hasBody && declaration.waits == 0

/-- The warning about an actor that never waits. -/
def idleWarning (declaration : Declaration) : Warning :=
  ⟨declaration.line, "ACTOR " ++ declaration.name ++ " does not contain a wait() statement"⟩

end Actor.Declaration

namespace Engine

/-- The warnings about declarations, in source order, unless the options silence them. -/
def idleWarnings (options : Options) (declarations : List Actor.Declaration) : List Warning :=
  if options.warnActorWithoutWait then
    (declarations.filter Actor.Declaration.isIdle).map Actor.Declaration.idleWarning
  else []

/-- The engine of the command line. -/
def surface : Engine := fun request =>
  match Actor.scan request.text with
  | .error fault => .failed (.ofFault fault)
  | .ok declarations => .produced ⟨request.layout, idleWarnings request.options declarations⟩

end Engine

end ActorSurface
