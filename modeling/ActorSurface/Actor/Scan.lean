import ActorSurface.Actor.Header
import ActorSurface.Token.Stream

/-!
The scan for actor declarations. It reads the items of a source from left to right, one step each
(`State.step`), and ends with a verdict (`State.finish`): the declarations in source order, or the first
fault with its line. It answers for what can be checked without a full grammar: that blocks are closed,
that headers declare a name and return a future or void, that no actor stands inside another, and that
`wait` is called inside actors only.
-/

namespace ActorSurface

namespace Actor

open Token (Item Kind LexicalFault)

/-- An actor declared in the source: its name, the line of its `ACTOR` keyword, whether it has a body (and
    is no forward declaration), and how often its body waits. -/
structure Declaration where
  name : String
  line : Nat
  hasBody : Bool
  waits : Nat
  deriving DecidableEq, Repr

/-- The declaration with one more wait. -/
def Declaration.addWait (declaration : Declaration) : Declaration :=
  { declaration with waits := declaration.waits + 1 }

/-- What the scan refuses. -/
inductive Fault where
  | lexical (fault : LexicalFault)
  | nestedActor
  | returnType
  | missingName
  | unterminatedDeclaration
  | unmatchedClose
  | unmatchedOpen
  | waitOutsideActor
  deriving DecidableEq, Repr

/-- The wording of a fault. -/
def Fault.message : Fault → String
  | .lexical fault => fault.message
  | .nestedActor => "ACTOR declared inside another ACTOR"
  | .returnType => "ACTOR must return Future<T> or void"
  | .missingName => "expected ACTOR name"
  | .unterminatedDeclaration => "unterminated ACTOR declaration"
  | .unmatchedClose => "unmatched '\x7d'"
  | .unmatchedOpen => "unmatched '\x7b'"
  | .waitOutsideActor => "wait() used outside of an ACTOR"

/-- An open block: the line of its brace, and the position of the declaration whose body it is. -/
structure Block where
  line : Nat
  actor : Option Nat
  deriving DecidableEq, Repr

/-- Where the scan stands between two items: outside headers, inside the header that the `ACTOR` keyword
    on a line began (with its open parentheses and its kinds so far, the latest first), or right behind a
    `wait` outside every actor. -/
inductive Mode where
  | outside
  | header (line : Nat) (parens : Nat) (kinds : List Kind)
  | behindWait (line : Nat)
  deriving DecidableEq, Repr

/-- What the scan has found so far: the open blocks, the innermost first; the declarations; the position of
    the declaration whose body is open; and where it stands. -/
structure State where
  blocks : List Block
  declarations : Array Declaration
  current : Option Nat
  mode : Mode
  deriving DecidableEq, Repr

/-- The verdict of a scan, or of a part of it. -/
abbrev Verdict := Except (Located Fault)

namespace State

/-- The state before the first item. -/
def initial : State :=
  ⟨[], #[], none, .outside⟩

/-- The open parentheses behind a kind. A closing parenthesis too many is passed over. -/
def parensBehind (parens : Nat) : Kind → Nat
  | .openParen => parens + 1
  | .closeParen => parens - 1
  | _ => parens

/-- Adds the declaration of a header that began on `line` and ended in a brace or a semicolon on `stop`. -/
def declare (state : State) (line : Nat) (header : Header) (hasBody : Bool) (stop : Nat) : Verdict State :=
  if header.returnsFutureOrVoid then
    match header.name? with
    | none => .error ⟨line, .missingName⟩
    | some name =>
      let position := state.declarations.size
      let declarations := state.declarations.push ⟨name, line, hasBody, 0⟩
      if hasBody then
        .ok ⟨⟨stop, some position⟩ :: state.blocks, declarations, some position, .outside⟩
      else .ok { state with declarations, mode := .outside }
  else .error ⟨line, .returnType⟩

/-- One kind of a header. -/
def inHeader (state : State) (start parens : Nat) (kinds : List Kind) (line : Nat) (kind : Kind) :
    Verdict State :=
  if parens = 0 ∧ kind = .openBrace then state.declare start kinds.reverse true line
  else if parens = 0 ∧ kind = .semicolon then state.declare start kinds.reverse false line
  else .ok { state with mode := .header start (parensBehind parens kind) (kind :: kinds) }

/-- A `wait` outside headers: it counts for the actor whose body is open, and outside actors the next item
    decides about it. -/
def waiting (state : State) (line : Nat) : Verdict State :=
  match state.current with
  | some position =>
    .ok { state with declarations := state.declarations.modify position Declaration.addWait, mode := .outside }
  | none => .ok { state with mode := .behindWait line }

/-- One kind outside headers. -/
def outsideHeader (state : State) (line : Nat) : Kind → Verdict State
  | .actor =>
    match state.current with
    | some _ => .error ⟨line, .nestedActor⟩
    | none => .ok { state with mode := .header line 0 [] }
  | .openBrace => .ok { state with blocks := ⟨line, none⟩ :: state.blocks, mode := .outside }
  | .closeBrace =>
    match state.blocks with
    | [] => .error ⟨line, .unmatchedClose⟩
    | block :: blocks =>
      .ok { state with blocks, current := if block.actor.isSome then none else state.current, mode := .outside }
  | .wait => state.waiting line
  | .waitNext => state.waiting line
  | _ => .ok { state with mode := .outside }

/-- One item. A lexical fault ends the scan wherever it stands. -/
def step (state : State) (item : Item) : Verdict State :=
  match item.value with
  | .error fault => .error ⟨item.line, .lexical fault⟩
  | .ok kind =>
    match state.mode with
    | .outside => state.outsideHeader item.line kind
    | .header start parens kinds => state.inHeader start parens kinds item.line kind
    | .behindWait line =>
      if kind = .openParen then .error ⟨line, .waitOutsideActor⟩ else state.outsideHeader item.line kind

/-- The verdict at the end of the text. -/
def finish (state : State) : Verdict (List Declaration) :=
  match state.mode, state.blocks with
  | .header line _ _, _ => .error ⟨line, .unterminatedDeclaration⟩
  | _, block :: _ => .error ⟨block.line, .unmatchedOpen⟩
  | _, [] => .ok state.declarations.toList

end State

/-- The verdict on the items of a source. -/
def scanItems (items : List Item) : Verdict (List Declaration) := do
  let state ← items.foldlM State.step State.initial
  state.finish

/-- The actors that a source text declares, or the first fault in it. -/
def scan (source : String) : Verdict (List Declaration) :=
  scanItems (Token.items source.toList)

end Actor

end ActorSurface
