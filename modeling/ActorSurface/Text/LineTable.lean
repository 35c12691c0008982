import ActorSurface.Text.Utf8

/-!
Lines of a text by byte offset. A line table holds the offset at which each line starts: 0, and every
offset behind a newline. `lineAt` finds the line of an offset by binary search for the number of lines
that start at or before it, so lines count from 1 and offsets past the end lie on the last line. Only
the newline ends a line.
-/

namespace ActorSurface

/-- The offsets at which the lines of a text start, in ascending order. -/
structure LineTable where
  starts : Array Nat
  deriving Repr

namespace LineTable

/-- The starts of the lines behind the first, for a text that stands at `offset`. -/
def startsBehind (offset : Nat) : List Char → List Nat
  | [] => []
  | char :: text =>
    let next := offset + char.utf8Size
    if char = '\n' then next :: startsBehind next text else startsBehind next text

/-- The line table of a text. -/
def ofText (text : List Char) : LineTable :=
  ⟨(0 :: startsBehind 0 text).toArray⟩

/-- The first position from `low` on, and `high` at the latest, whose line starts behind `offset`. -/
def search (starts : Array Nat) (offset low high : Nat) : Nat :=
  if low < high then
    let middle := low + (high - low) / 2
    match starts[middle]? with
    | some start => if start ≤ offset then search starts offset (middle + 1) high else search starts offset low middle
    | none => low
  else low
termination_by high - low

/-- The line, counted from 1, on which an offset lies. -/
def lineAt (table : LineTable) (offset : Nat) : Nat :=
  search table.starts offset 0 table.starts.size

end LineTable

end ActorSurface
