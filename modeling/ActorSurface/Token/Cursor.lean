import ActorSurface.Failure
import ActorSurface.Token.Stream

/-!
A cursor over the tokens of a text, with one token of lookahead. Taking the next reading delivers the
token that lookahead kept, if it kept one. Lookahead keeps a token; a lexical fault that it meets is
delivered at once and not kept, so that every fault is delivered exactly once. Behind the last reading
every further one is the end of the text.
-/

namespace ActorSurface

namespace Token

/-- The state of reading a text: its lines, its size in bytes, the readings still to come and the token
    that lookahead kept. -/
structure Cursor where
  lines : LineTable
  size : Nat
  pending : List Reading
  ahead : Option Token

namespace Cursor

/-- A cursor at the beginning of a text. -/
def ofText (text : List Char) : Cursor :=
  ⟨.ofText text, Utf8.size text, readings text, none⟩

/-- The next reading, behind what lookahead kept. -/
def read (cursor : Cursor) : Reading × Cursor :=
  match cursor.pending with
  | [] => (.ok (atEnd cursor.size), cursor)
  | reading :: pending => (reading, { cursor with pending })

/-- Takes the next token, or delivers the lexical fault that stands in its place. -/
def next (cursor : Cursor) : Reading × Cursor :=
  match cursor.ahead with
  | some token => (.ok token, { cursor with ahead := none })
  | none => cursor.read

/-- Looks at the next token without taking it, or delivers the lexical fault in its place. -/
def peek (cursor : Cursor) : Reading × Cursor :=
  match cursor.next with
  | (.ok token, cursor) => (.ok token, { cursor with ahead := some token })
  | (.error misread, cursor) => (.error misread, cursor)

/-- Whether the kind of the next token is accepted, by lookahead. -/
def check (accepted : Kind → Bool) (cursor : Cursor) : Except Misread Bool × Cursor :=
  let (reading, cursor) := cursor.peek
  (reading.map fun token => accepted token.kind, cursor)

/-- The line of a byte offset. -/
def lineOf (cursor : Cursor) (offset : Nat) : Nat :=
  cursor.lines.lineAt offset

/-- The failure of a message about what stands at a byte offset. -/
def failureAt (cursor : Cursor) (offset : Nat) (message : String) : Failure :=
  .atLine (cursor.lineOf offset) message

/-- The failure that a lexical fault means. -/
def failure (cursor : Cursor) (misread : Misread) : Failure :=
  cursor.failureAt misread.offset misread.fault.message

/-- The readings from the cursor on, and behind them the end of the text. -/
def toList (cursor : Cursor) : List Reading :=
  (cursor.ahead.map Except.ok).toList ++ cursor.pending ++ [.ok (atEnd cursor.size)]

/-- The tokens at the front of some readings, through the first that is the end of a text, and the lexical
    fault that stands before it, if one does. -/
def tokensOf : List Reading → List Token × Option Misread
  | [] => ([], none)
  | .error misread :: _ => ([], some misread)
  | .ok token :: rest =>
    if token.kind = .endOfText then ([token], none)
    else
      let (tokens, misread) := tokensOf rest
      (token :: tokens, misread)

/-- The tokens from the cursor on, up to the first lexical fault or the end of the text. -/
def tokens (cursor : Cursor) : List Token × Option Misread :=
  tokensOf cursor.toList

end Cursor

end Token

end ActorSurface
