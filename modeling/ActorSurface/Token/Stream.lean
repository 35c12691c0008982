import ActorSurface.Text.LineTable
import ActorSurface.Text.Located
import ActorSurface.Token.Piece

/-!
What is read off the pieces of a text: tokens and lexical faults, each at its byte offset, in order. The
skipped pieces only move the offset. The readings are all of the text, also those behind a fault: a fault
takes the text of its piece and reading goes on behind it.
-/

namespace ActorSurface

/-- A token: its kind and the byte offsets at which it starts and ends. -/
structure Token where
  kind : Token.Kind
  start : Nat
  stop : Nat
  deriving DecidableEq, Repr

namespace Token

/-- A lexical fault and the byte offset at which its piece starts. -/
structure Misread where
  fault : LexicalFault
  offset : Nat
  deriving DecidableEq, Repr

/-- One result of reading on: a token, or a lexical fault. -/
abbrev Reading := Except Misread Token

/-- The reading of a piece that stands at an offset, if it is not skipped. -/
def Piece.reading? (piece : Piece) (offset : Nat) : Option Reading :=
  match piece.form with
  | .skipped _ => none
  | .token kind => some (.ok ⟨kind, offset, offset + piece.size⟩)
  | .malformed fault => some (.error ⟨fault, offset⟩)

/-- The readings of pieces, the first of which stands at an offset. -/
def readingsAt (offset : Nat) : List Piece → List Reading
  | [] => []
  | piece :: rest => (piece.reading? offset).toList ++ readingsAt (offset + piece.size) rest

/-- The readings of a text up to its end. -/
def readings (text : List Char) : List Reading :=
  readingsAt 0 (pieces text)

/-- The token that stands for the end of a text of a given size. -/
def atEnd (size : Nat) : Token :=
  ⟨.endOfText, size, size⟩

/-- What the scan for actors is told of the source: on which line a token of some kind starts, or a
    lexical fault. -/
abbrev Item := Located (Except LexicalFault Kind)

/-- The item of a reading. -/
def itemOf (lines : LineTable) : Reading → Item
  | .ok token => ⟨lines.lineAt token.start, .ok token.kind⟩
  | .error misread => ⟨lines.lineAt misread.offset, .error misread.fault⟩

/-- The items of a text. -/
def items (text : List Char) : List Item :=
  (readings text).map (itemOf (.ofText text))

end Token

end ActorSurface
