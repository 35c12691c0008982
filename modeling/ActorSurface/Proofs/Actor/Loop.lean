import ActorSurface.Proofs.Actor.Checked
import ActorSurface.Proofs.Actor.Grammar
import ActorSurface.Proofs.Token.Bumps
import ActorSurface.Proofs.Token.Supply

/-!
The scan as a loop over a cursor. One turn of the loop takes a token and does what its kind asks for: it opens or closes
a block, reads on through a whole header, or counts a wait, and for a wait outside of every actor it looks at the token
behind. Cuts, counters and places in lists are checked, so a turn ends in a trap where one of them has no result. The
counters hold numbers up to the size of the text, as the offsets into it do. Nothing is said of how the loop ends but
that its turns go on one after the other (`Loop.Ends`): that they come to an end is left to be proved.
-/

namespace ActorSurface

namespace Actor

open Token (Cursor Item Kind)

/-- What ends a scan without declarations: a fault of the source, or an operation without a result. -/
inductive Stop where
  | fault (fault : Located Fault)
  | trap (trap : Trap)
  deriving DecidableEq, Repr

/-- A checked operation as a part of the scan. -/
def Stop.ofChecked {α : Type} (result : Except Trap α) : Except Stop α :=
  result.mapError .trap

/-- The scan between two tokens: the cursor, the open blocks with the innermost first, the declarations, and the position
    of the one whose body is open. -/
structure Loop where
  cursor : Cursor
  blocks : List Block
  declarations : Array Declaration
  current : Option Nat

/-- How a turn of the loop ends that is not stopped. -/
inductive Turn where
  | onward (loop : Loop)
  | finished (declarations : List Declaration)

namespace Loop

/-- The line on which a token starts. -/
def lineOf (loop : Loop) (token : Token) : Nat :=
  loop.cursor.lineOf token.start

/-- The next token. -/
def next (loop : Loop) : Except Stop (Token × Loop) :=
  match loop.cursor.next with
  | (.ok token, cursor) => .ok (token, { loop with cursor })
  | (.error misread, cursor) => .error (.fault ⟨cursor.lineOf misread.offset, .lexical misread.fault⟩)

theorem next_lt {loop behind : Loop} {token : Token} (next : loop.next = .ok (token, behind))
    (more : token.kind ≠ .endOfText) : behind.cursor.left.length < loop.cursor.left.length := by
  unfold Loop.next at next
  split at next
  next taken cursor takes =>
    cases next
    simpa [takes] using Cursor.left_next_lt (congrArg Prod.fst takes) more
  next => cases next

/-- Reads on through the brace or the semicolon outside parentheses that ends a header, where `kinds` have been read of
    it: the kinds before that token, and the token. -/
def header (loop : Loop) (line parens : Nat) (kinds : Header) : Except Stop (Header × Token × Loop) :=
  match _next : loop.next with
  | .error stop => .error stop
  | .ok (token, behind) =>
    if _ends : token.kind = .endOfText then .error (.fault ⟨line, .unterminatedDeclaration⟩)
    else if parens = 0 ∧ (token.kind = .openBrace ∨ token.kind = .semicolon) then .ok (kinds, token, behind)
    else
      match parensChecked loop.cursor.size parens token.kind with
      | .error trap => .error (.trap trap)
      | .ok parens => behind.header line parens (kinds ++ [token.kind])
termination_by loop.cursor.left.length
decreasing_by exact next_lt _next _ends

/-- Adds the declaration of a header that began on `line`, and opens its body where a brace ended it. -/
def declare (loop : Loop) (line : Nat) (header : Header) (stop : Token) : Except Stop Loop := do
  if ← Stop.ofChecked (header.returnsChecked loop.cursor.size) then
    match ← Stop.ofChecked (header.nameChecked loop.cursor.size 0 none) with
    | none => .error (.fault ⟨line, .missingName⟩)
    | some name =>
      let hasBody : Bool := stop.kind = .openBrace
      let position := loop.declarations.size
      let declarations := loop.declarations.push ⟨name, line, hasBody, 0⟩
      if hasBody then
        .ok { loop with
          blocks := ⟨loop.lineOf stop, some position⟩ :: loop.blocks, declarations, current := some position }
      else .ok { loop with declarations }
  else .error (.fault ⟨line, .returnType⟩)

/-- A whole declaration through the token that ends its header. -/
def actor (loop : Loop) (keyword : Token) : Except Stop Loop :=
  let line := loop.lineOf keyword
  match loop.current with
  | some _ => .error (.fault ⟨line, .nestedActor⟩)
  | none => do
    let (header, stop, behind) ← loop.header line 0 []
    behind.declare line header stop

/-- Opens a block. -/
def openBlock (loop : Loop) (brace : Token) : Loop :=
  { loop with blocks := ⟨loop.lineOf brace, none⟩ :: loop.blocks }

/-- Closes the innermost block, and the body of an actor if it is one. -/
def closeBlock (loop : Loop) (brace : Token) : Except Stop Loop :=
  match loop.blocks with
  | [] => .error (.fault ⟨loop.lineOf brace, .unmatchedClose⟩)
  | block :: blocks =>
    .ok { loop with blocks, current := if block.actor.isSome then none else loop.current }

/-- Refuses a wait outside of actors where the next token makes it a call. -/
def refuseCall (loop : Loop) (keyword : Token) : Except Stop Loop :=
  match loop.cursor.check (Kind.alike .openParen) with
  | (.error misread, cursor) => .error (.fault ⟨cursor.lineOf misread.offset, .lexical misread.fault⟩)
  | (.ok true, _) => .error (.fault ⟨loop.lineOf keyword, .waitOutsideActor⟩)
  | (.ok false, cursor) => .ok { loop with cursor }

/-- Counts a wait for the actor whose body is open. -/
def wait (loop : Loop) (keyword : Token) : Except Stop Loop :=
  match loop.current with
  | some position => do
    let declarations ← Stop.ofChecked (addWaitChecked loop.cursor.size loop.declarations position)
    .ok { loop with declarations }
  | none => loop.refuseCall keyword

/-- The verdict at the end of the text. -/
def finish (loop : Loop) : Except Stop (List Declaration) :=
  match loop.blocks with
  | block :: _ => .error (.fault ⟨block.line, .unmatchedOpen⟩)
  | [] => .ok loop.declarations.toList

/-- What the kind of a token asks for, where the loop stands behind that token. -/
def act (loop : Loop) (token : Token) : Except Stop Turn :=
  match token.kind with
  | .actor => (loop.actor token).map .onward
  | .openBrace => .ok (.onward (loop.openBlock token))
  | .closeBrace => (loop.closeBlock token).map .onward
  | .wait => (loop.wait token).map .onward
  | .waitNext => (loop.wait token).map .onward
  | .endOfText => loop.finish.map .finished
  | _ => .ok (.onward loop)

/-- One turn of the loop. -/
def turn (loop : Loop) : Except Stop Turn := do
  let (token, behind) ← loop.next
  behind.act token

/-- The scan at the beginning of a text. -/
def atStart (cursor : Cursor) : Loop :=
  ⟨cursor, [], #[], none⟩

/-- What the scan holds between two tokens after any number of turns. -/
inductive Reaches (loop : Loop) : Loop → Prop
  | here : Reaches loop loop
  | onward {behind next : Loop} : Reaches loop behind → behind.turn = .ok (.onward next) → Reaches loop next

/-- How the loop ends: turns go on one after the other until one stops it or is the last. -/
inductive Ends : Loop → Except Stop (List Declaration) → Prop
  | stopped {loop : Loop} {stop : Stop} : loop.turn = .error stop → Ends loop (.error stop)
  | finished {loop : Loop} {declarations : List Declaration} :
      loop.turn = .ok (.finished declarations) → Ends loop (.ok declarations)
  | onward {loop behind : Loop} {result : Except Stop (List Declaration)} :
      loop.turn = .ok (.onward behind) → Ends behind result → Ends loop result

/-- What the scan holds between two tokens, as a state outside of headers. -/
def state (loop : Loop) : State :=
  ⟨loop.blocks, loop.declarations, loop.current, .outside⟩

/-- A verdict on a state, as the loop goes on from it behind a cursor. -/
def ofVerdict (cursor : Cursor) : Verdict State → Except Stop Loop
  | .ok state => .ok ⟨cursor, state.blocks, state.declarations, state.current⟩
  | .error fault => .error (.fault fault)

variable {loop : Loop}

/-- A loop ends as its next turn says. -/
theorem ends_iff {result : Except Stop (List Declaration)} :
    loop.Ends result ↔
      match loop.turn with
      | .error stop => result = .error stop
      | .ok (.finished declarations) => result = .ok declarations
      | .ok (.onward behind) => behind.Ends result := by
  constructor
  · intro ends
    cases ends with
    | stopped turn => rw [turn]
    | finished turn => rw [turn]
    | onward turn ends =>
      rw [turn]
      exact ends
  · intro follows
    split at follows
    next stop turn => exact follows ▸ .stopped turn
    next declarations turn => exact follows ▸ .finished turn
    next behind turn => exact .onward turn follows

/-- A loop ends in one way only. -/
theorem Ends.unique {result other : Except Stop (List Declaration)} (ends : loop.Ends result)
    (endsToo : loop.Ends other) : result = other := by
  induction ends with
  | stopped turn =>
    rw [ends_iff, turn] at endsToo
    exact endsToo.symm
  | finished turn =>
    rw [ends_iff, turn] at endsToo
    exact endsToo.symm
  | onward turn _ ih =>
    rw [ends_iff, turn] at endsToo
    exact ih endsToo

/-! ### Kinds -/

theorem act_of_actor {token : Token} (isActor : token.kind = .actor) :
    loop.act token = (loop.actor token).map .onward := by
  simp only [act, isActor]

theorem act_of_isWait {token : Token} (waits : Grammar.isWait token.kind = true) :
    loop.act token = (loop.wait token).map .onward := by
  rcases show token.kind = .wait ∨ token.kind = .waitNext by simpa [Grammar.isWait] using waits with kind | kind
  all_goals simp only [act, kind]

theorem act_of_endOfText {token : Token} (last : token.kind = .endOfText) :
    loop.act token = loop.finish.map .finished := by
  simp only [act, last]

theorem wait_of_outside {keyword : Token} (outside : loop.current = none) :
    loop.wait keyword = loop.refuseCall keyword := by
  unfold wait
  rw [outside]

theorem actor_of_current {position : Nat} {keyword : Token} (inside : loop.current = some position) :
    loop.actor keyword = .error (.fault ⟨loop.lineOf keyword, .nestedActor⟩) := by
  unfold actor
  rw [inside]

theorem actor_of_outside {keyword : Token} (outside : loop.current = none) :
    loop.actor keyword = (loop.header (loop.lineOf keyword) 0 []).bind fun (header, stop, behind) =>
      behind.declare (loop.lineOf keyword) header stop := by
  unfold actor
  rw [outside]
  rfl

/-! ### Where nothing traps -/

/-- The questions to a header are answered where counters go as far as the header is long. -/
theorem declare_eq {line : Nat} {header : Header} {stop : Token}
    (room : header.length ≤ loop.cursor.size) :
    loop.declare line header stop =
      ofVerdict loop.cursor (loop.state.declare line header (stop.kind = .openBrace) (loop.lineOf stop)) := by
  unfold declare State.declare
  rw [Header.returnsChecked_eq room, Header.nameChecked_eq 0 none header (by simpa using room)]
  cases header.returnsFutureOrVoid with
  | false => rfl
  | true =>
    unfold Header.name?
    cases Header.nameBehind 0 none header with
    | none => rfl
    | some name =>
      generalize decide (stop.kind = .openBrace) = hasBody
      cases hasBody <;> rfl

/-- A wait is counted where its actor is declared and has not waited as often as can be counted. -/
theorem wait_eq {keyword : Token} {position : Nat} (current : loop.current = some position)
    (inside : position < loop.declarations.size) (room : loop.declarations[position].waits < loop.cursor.size) :
    loop.wait keyword = ofVerdict loop.cursor (loop.state.waiting (loop.lineOf keyword)) := by
  obtain ⟨cursor, blocks, declarations, held⟩ := loop
  obtain rfl : held = some position := current
  change (Stop.ofChecked (addWaitChecked cursor.size declarations position)).bind _ = _
  rw [addWaitChecked_eq inside room]
  rfl

/-- What a token does where it is neither the end nor a keyword that makes the loop read on. -/
theorem act_eq {token : Token} (more : token.kind ≠ .endOfText) (notActor : token.kind ≠ .actor)
    (counted : Grammar.isWait token.kind = true → ∃ position, loop.current = some position ∧
      ∃ inside : position < loop.declarations.size, loop.declarations[position].waits < loop.cursor.size) :
    loop.act token =
      (ofVerdict loop.cursor (loop.state.outsideHeader (loop.lineOf token) token.kind)).map .onward := by
  have counts : Grammar.isWait token.kind = true → loop.wait token =
      ofVerdict loop.cursor (loop.state.waiting (loop.lineOf token)) := by
    intro waits
    obtain ⟨position, current, inside, room⟩ := counted waits
    exact wait_eq current inside room
  unfold act State.outsideHeader
  cases kind : token.kind with
  | actor => exact absurd kind notActor
  | endOfText => exact absurd kind more
  | closeBrace =>
    unfold closeBlock state
    cases loop.blocks <;> rfl
  | wait => exact congrArg (Except.map Turn.onward) (counts (by rw [kind]; rfl))
  | waitNext => exact congrArg (Except.map Turn.onward) (counts (by rw [kind]; rfl))
  | _ => rfl

end Loop

/-- How the scan of a source ends where its cuts, counters and places in lists are checked. -/
inductive Scans (source : String) : Except Stop (List Declaration) → Prop
  | trapped {trap : Trap} : Cursor.ofTextChecked source.toList = .error trap → Scans source (.error (.trap trap))
  | looped {cursor : Cursor} {result : Except Stop (List Declaration)} :
      Cursor.ofTextChecked source.toList = .ok cursor → (Loop.atStart cursor).Ends result → Scans source result

end Actor

end ActorSurface
