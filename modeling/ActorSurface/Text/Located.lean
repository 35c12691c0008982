/-!
Values with the line of the source on which they stand.
-/

namespace ActorSurface

/-- A value and its line, counted from 1. -/
structure Located (α : Type) where
  line : Nat
  value : α
  deriving DecidableEq, Repr

/-- The same value, `count` lines further down. -/
def Located.shift {α : Type} (count : Nat) (located : Located α) : Located α :=
  { located with line := located.line + count }

end ActorSurface
