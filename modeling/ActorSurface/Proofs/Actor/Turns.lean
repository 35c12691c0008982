import ActorSurface.Proofs.Actor.Consistency
import ActorSurface.Proofs.Actor.Loop
import ActorSurface.Proofs.Token.Lookahead

/-!
The loop is the scan. Between two turns it holds what the scan holds behind some front of the items (`Follows`). A turn
reads the next token, a header all of it, and goes on to where the scan does, fails where it fails, or ends where it
ends; and nothing in it traps (`Follows.turn`). The counters hold whatever they are asked to, since no more is counted
than items are read, and the wait is always counted for an actor that is declared. So every text is scanned to an end,
in one way, and that is the verdict of the scan (`Follows.ends`, `scans_iff`).
-/

namespace ActorSurface

namespace Actor

open Token (Cursor Item Kind)
open Token.Cursor (Gave)

/-! ### Runs over the items of a text -/

variable {text : List Char} {front read : List Item}

/-- A fault of the step that follows is the verdict. -/
theorem scanItems_eq_error_of_step {item : Item} {rest : List Item} {state : State} {fault : Located Fault}
    (listed : Token.items text = front ++ item :: rest) (goes : front.foldlM State.step State.initial = .ok state)
    (refuses : state.step item = .error fault) : scanItems (Token.items text) = .error fault := by
  have fails : (front ++ item :: rest).foldlM State.step State.initial = .error fault :=
    foldlM_eq_error_iff.mpr ⟨front, item, rest, state, rfl, goes, refuses⟩
  rw [listed, scanItems, fails]
  rfl

/-- Where all items have been read, the verdict is that of the end. -/
theorem scanItems_of_run {state : State} (listed : Token.items text = front)
    (goes : front.foldlM State.step State.initial = .ok state) : scanItems (Token.items text) = state.finish := by
  rw [listed, scanItems, goes]
  rfl

theorem foldlM_append_singleton {state : State} {item : Item} (goes : front.foldlM State.step State.initial = .ok state) :
    (front ++ [item]).foldlM State.step State.initial = state.step item := by
  rw [List.foldlM_append, goes]
  change (state.step item).bind Except.ok = _
  cases state.step item <;> rfl

/-! ### Steps -/

namespace State

variable {state next : State} {line : Nat} {kind : Kind}

/-- A token that does not end a header is one more kind of it. -/
theorem step_inHeader {place parens : Nat} {kinds : Header}
    (inside : ¬ (parens = 0 ∧ (kind = .openBrace ∨ kind = .semicolon))) :
    ({ state with mode := .header line parens kinds.reverse } : State).step ⟨place, .ok kind⟩ =
      .ok { state with mode := .header line (parensBehind parens kind) (kinds ++ [kind]).reverse } := by
  have notBrace : ¬ (parens = 0 ∧ kind = .openBrace) := fun ⟨closed, brace⟩ => inside ⟨closed, .inl brace⟩
  have notStop : ¬ (parens = 0 ∧ kind = .semicolon) := fun ⟨closed, stop⟩ => inside ⟨closed, .inr stop⟩
  simp [step, inHeader, notBrace, notStop]

/-- The brace or the semicolon outside parentheses declares the actor of the header that it ends. -/
theorem step_ending {place : Nat} {header : Header} (ends : kind = .openBrace ∨ kind = .semicolon) :
    ({ state with mode := .header line 0 header.reverse } : State).step ⟨place, .ok kind⟩ =
      state.declare line header (kind = .openBrace) place := by
  rcases ends with rfl | rfl
  · simp only [step, inHeader, and_self, if_true, List.reverse_reverse]
    rfl
  · simp only [step, inHeader, and_self, if_true, List.reverse_reverse]
    rfl

theorem parensBehind_le (parens : Nat) (kind : Kind) : parensBehind parens kind ≤ parens + 1 := by
  cases kind <;> simp only [parensBehind] <;> omega

theorem mode_of_declare {stop : Nat} {header : Header} {hasBody : Bool}
    (ends : state.declare line header hasBody stop = .ok next) : next.mode = .outside := by
  unfold declare at ends
  repeat' split at ends
  all_goals cases ends
  all_goals rfl

theorem mode_of_outsideHeader (ends : state.outsideHeader line kind = .ok next) (notActor : kind ≠ .actor)
    (inside : Grammar.isWait kind = true → state.current ≠ none) : next.mode = .outside := by
  cases goes_of_outsideHeader ends with
  | heading => exact absurd rfl notActor
  | waits waits outside => exact absurd outside (inside waits)
  | opening => rfl
  | closing => rfl
  | counted => rfl
  | other => rfl

theorem outsideHeader_of_isWait (waits : Grammar.isWait kind = true) :
    state.outsideHeader line kind = state.waiting line := by
  rcases show kind = .wait ∨ kind = .waitNext by simpa [Grammar.isWait] using waits with rfl | rfl <;> rfl

end State

theorem alike_openParen (kind : Kind) : Kind.alike .openParen kind = true ↔ kind = .openParen := by
  rw [Kind.alike_iff, eq_comm]
  simp

namespace Loop

variable {loop : Loop}

/-! ### Tokens -/

/-- What the loop takes next behind a front of the items of a text: the end, the first of the others as a token, or the
    lexical fault in its place. -/
inductive Takes (text : List Char) (front : List Item) (loop : Loop) : Except Stop (Token × Loop) → Prop
  | ended {token : Token} {cursor : Cursor} : Token.items text = front → token.kind = .endOfText →
      Takes text front loop (.ok (token, { loop with cursor }))
  | token {token : Token} {cursor : Cursor} :
      Gave text (front ++ [⟨cursor.lineOf token.start, .ok token.kind⟩]) cursor → token.kind ≠ .endOfText →
      cursor.ahead = none → Takes text front loop (.ok (token, { loop with cursor }))
  | fault {line : Nat} {fault : Token.LexicalFault} {rest : List Item} :
      Token.items text = front ++ ⟨line, .error fault⟩ :: rest →
      Takes text front loop (.error (.fault ⟨line, .lexical fault⟩))

theorem takes_next (gave : Gave text front loop.cursor) : Takes text front loop loop.next := by
  have gives := gave.next
  unfold next
  generalize loop.cursor.next = given at gives ⊢
  cases gives with
  | ended none_left last => exact .ended none_left last
  | token further more nothing => exact .token further more nothing
  | fault listed => exact .fault listed

/-- What is not the end is the next item of the text. -/
theorem Takes.further {token : Token} {behind : Loop} (takes : Takes text front loop (.ok (token, behind)))
    (more : token.kind ≠ .endOfText) : ∃ cursor, behind = { loop with cursor } ∧
      Gave text (front ++ [⟨cursor.lineOf token.start, .ok token.kind⟩]) cursor := by
  cases takes with
  | ended none_left last => exact absurd last more
  | token further => exact ⟨_, rfl, further⟩

/-! ### Headers -/

/-- How reading a header ends for the scan that has come to it behind a front of the items: in the header, before the
    brace or the semicolon that is read last, or with the verdict. -/
inductive Headed (text : List Char) (front : List Item) (state : State) (line : Nat) (loop : Loop) :
    Except Stop (Header × Token × Loop) → Prop
  | ended {read : List Item} {header : Header} {stop : Token} {cursor : Cursor} :
      (front ++ read).foldlM State.step State.initial = .ok { state with mode := .header line 0 header.reverse } →
      Gave text (front ++ read ++ [⟨cursor.lineOf stop.start, .ok stop.kind⟩]) cursor →
      stop.kind = .openBrace ∨ stop.kind = .semicolon → header.length ≤ cursor.size →
      Headed text front state line loop (.ok (header, stop, { loop with cursor }))
  | stopped {fault : Located Fault} : scanItems (Token.items text) = .error fault →
      Headed text front state line loop (.error (.fault fault))

/-- What the loop holds besides its cursor is the same throughout a header. -/
theorem Headed.of_cursor {state : State} {line : Nat} {cursor : Cursor} {result : Except Stop (Header × Token × Loop)}
    (headed : Headed text front state line { loop with cursor } result) :
    Headed text front state line loop result := by
  cases headed with
  | ended goes gave stops room => exact .ended goes gave stops room
  | stopped fails => exact .stopped fails

/-- Where parentheses are open in a header there is room to count one more. -/
theorem room_behind {cursor : Cursor} {item : Item} {kinds : Header} {parens : Nat}
    (gave : Gave text (front ++ read) loop.cursor) (further : Gave text (front ++ read ++ [item]) cursor)
    (long : kinds.length ≤ read.length) (closed : parens ≤ kinds.length) : parens < loop.cursor.size := by
  have room := further.length_le
  have same : cursor.size = loop.cursor.size := further.size.trans gave.size.symm
  simp only [List.length_append, List.length_singleton] at room
  omega

/-- A header is read as the scan reads it, token by token, and its parentheses are counted. -/
theorem headed_header {state : State} {line parens : Nat} {kinds : Header}
    (gave : Gave text (front ++ read) loop.cursor)
    (goes : (front ++ read).foldlM State.step State.initial = .ok { state with mode := .header line parens kinds.reverse })
    (closed : parens ≤ kinds.length) (long : kinds.length ≤ read.length) :
    Headed text front state line loop (loop.header line parens kinds) := by
  have takes := takes_next gave
  fun_induction header loop line parens kinds generalizing read with
  | case1 loop parens kinds stop next =>
    rw [next] at takes
    cases takes with
    | fault listed => exact .stopped (scanItems_eq_error_of_step listed goes rfl)
  | case2 loop parens kinds token behind next last =>
    rw [next] at takes
    cases takes with
    | ended none_left => exact .stopped (scanItems_of_run none_left goes)
    | token further more => exact absurd last more
  | case3 loop parens kinds token behind next more ends =>
    rw [next] at takes
    obtain ⟨cursor, rfl, further⟩ := takes.further more
    obtain ⟨rfl, stops⟩ := ends
    have room := further.length_le
    simp only [List.length_append] at room
    exact .ended goes further stops (by omega)
  | case4 loop parens kinds token behind next more ends trap trapped =>
    rw [next] at takes
    obtain ⟨cursor, rfl, further⟩ := takes.further more
    rw [parensChecked_eq (room_behind gave further long closed)] at trapped
    cases trapped
  | case5 loop parens kinds token behind next more ends deeper counted ih =>
    rw [next] at takes
    obtain ⟨cursor, rfl, further⟩ := takes.further more
    rw [parensChecked_eq (room_behind gave further long closed)] at counted
    obtain rfl := Except.ok.inj counted
    have onward : (front ++ (read ++ [(⟨cursor.lineOf token.start, .ok token.kind⟩ : Item)])).foldlM State.step
        State.initial = .ok { state with
          mode := .header line (State.parensBehind parens token.kind) (kinds ++ [token.kind]).reverse } := by
      rw [← List.append_assoc, foldlM_append_singleton goes]
      exact State.step_inHeader ends
    rw [List.append_assoc] at further
    have deeper := State.parensBehind_le parens token.kind
    have headed := ih further onward (by simp; omega) (by simp; omega) (takes_next further)
    exact headed.of_cursor

/-! ### Turns -/

/-- The kind of the first of some items, where it is a token. -/
def firstKind (items : List Item) : Option Kind :=
  items.head?.bind fun item => item.value.toOption

/-- A loop behind a front of the items of a text that holds what the scan holds there, at rest outside of headers. -/
structure Follows (text : List Char) (front : List Item) (loop : Loop) (state : State) : Prop where
  gave : Gave text front loop.cursor
  goes : front.foldlM State.step State.initial = .ok state
  holds : loop.state = { state with mode := .outside }
  resting : State.Mode.Resting state.mode (firstKind loop.cursor.items)

theorem follows_atStart (text : List Char) : Follows text [] (atStart (.ofText text)) State.initial :=
  ⟨Token.Cursor.gave_ofText text, rfl, rfl, .inl rfl⟩

/-- What a turn comes to behind a front of the items of a text: the loop follows the scan further, with no declaration
    changed but that of the actor whose body is open, or the verdict of the scan is there. -/
inductive Turned (text : List Char) (front : List Item) (loop : Loop) : Except Stop Turn → Prop
  | onward {next : Loop} {read : List Item} {state : State} : read ≠ [] → Follows text (front ++ read) next state →
      Keeps loop.current loop.declarations next.declarations → Turned text front loop (.ok (.onward next))
  | finished {declarations : List Declaration} : scanItems (Token.items text) = .ok declarations →
      Turned text front loop (.ok (.finished declarations))
  | stopped {fault : Located Fault} : scanItems (Token.items text) = .error fault →
      Turned text front loop (.error (.fault fault))

variable {state : State}

/-- At rest the next token is read by the rules outside of headers. -/
theorem Follows.step {cursor : Cursor} {line : Nat} {kind : Kind} (follows : Follows text front loop state)
    (further : Gave text (front ++ [⟨line, .ok kind⟩]) cursor) :
    state.step ⟨line, .ok kind⟩ = loop.state.outsideHeader line kind := by
  have first : loop.cursor.items = ⟨line, .ok kind⟩ :: cursor.items := by
    have split := follows.gave.items.symm.trans further.items
    simpa using split
  have resting := follows.resting
  rw [first] at resting
  rw [follows.holds]
  exact State.step_of_resting resting

/-- At rest the end of the text is where the scan ends too. -/
theorem Follows.finish (follows : Follows text front loop state) (none_left : Token.items text = front) :
    Turned text front loop (loop.finish.map .finished) := by
  have verdict := scanItems_of_run none_left follows.goes
  rw [State.finish_of_resting follows.resting, ← follows.holds] at verdict
  obtain ⟨cursor, blocks, declarations, current⟩ := loop
  cases blocks with
  | nil => exact .finished verdict
  | cons block blocks => exact .stopped verdict

/-- Where the scan steps to a state outside of headers the loop goes on to it, and stops where the scan is refused. -/
theorem turned_of_step {item : Item} {before : State} {cursor : Cursor}
    (goes : (front ++ read).foldlM State.step State.initial = .ok before)
    (gave : Gave text (front ++ read ++ [item]) cursor) (holds : loop.state = { before with mode := .outside })
    (outside : ∀ after, before.step item = .ok after → after.mode = .outside) :
    Turned text front loop ((ofVerdict cursor (before.step item)).map .onward) := by
  cases verdict : before.step item with
  | error fault =>
    have listed := gave.items
    rw [List.append_assoc (front ++ read)] at listed
    exact .stopped (scanItems_eq_error_of_step listed goes verdict)
  | ok after =>
    have keeps := State.keeps_of_step verdict
    have rests := outside after verdict
    have onward := (foldlM_append_singleton goes).trans verdict
    rw [List.append_assoc] at gave onward
    refine .onward (by simp) ⟨gave, onward, ?_, .inl rests⟩ ?_
    · obtain ⟨blocks, declarations, current, mode⟩ := after
      rfl
    · have current : loop.current = before.current := congrArg State.current holds
      have declarations : loop.declarations = before.declarations := congrArg State.declarations holds
      rwa [current, declarations]

/-- What the loop holds between two turns fits together, since it is what the scan holds. -/
theorem Follows.consistent (follows : Follows text front loop state) : loop.state.Consistent := by
  have early : front <+: Token.items text := by
    rw [follows.gave.items]
    exact List.prefix_append ..
  rw [follows.holds]
  exact (State.consistent_of_run early follows.goes).with_mode .outside

/-- The actor whose body is open is declared, and one more wait of its can be counted. -/
theorem Follows.counted {item : Item} {cursor : Cursor} {position : Nat} (follows : Follows text front loop state)
    (further : Gave text (front ++ [item]) cursor) (current : loop.current = some position) :
    ∃ inside : position < loop.declarations.size, loop.declarations[position].waits < cursor.size := by
  have last : position + 1 = loop.declarations.size := (follows.consistent.last position current).1
  have inside : position < loop.declarations.size := by omega
  have declared : loop.declarations = state.declarations := congrArg State.declarations follows.holds
  have listed : loop.declarations[position] ∈ state.declarations := by
    rw [← declared]
    exact Array.getElem_mem inside
  obtain ⟨lexemes, rfl⟩ := lexemes_of_foldlM follows.goes
  have goes := follows.goes
  rw [foldlM_items] at goes
  have few := State.waits_le_of_run goes _ listed
  have room := further.length_le
  simp only [List.length_append, List.length_map, List.length_singleton] at room
  exact ⟨inside, by omega⟩

/-- A token that makes the loop read no further does what it does to the scan. -/
theorem Follows.plain {token : Token} {cursor : Cursor} (follows : Follows text front loop state)
    (further : Gave text (front ++ [⟨cursor.lineOf token.start, .ok token.kind⟩]) cursor) (more : token.kind ≠ .endOfText)
    (notActor : token.kind ≠ .actor) (inside : Grammar.isWait token.kind = true → loop.current ≠ none) :
    Turned text front loop (act { loop with cursor } token) := by
  rw [act_eq more notActor]
  · have step := follows.step further
    rw [← List.append_nil front] at further
    have turned := turned_of_step (by simpa using follows.goes) further follows.holds fun after ends =>
      State.mode_of_outsideHeader (step ▸ ends) notActor inside
    rwa [step] at turned
  · intro waits
    obtain ⟨position, current⟩ := Option.ne_none_iff_exists'.mp (inside waits)
    exact ⟨position, current, follows.counted further current⟩

/-- Outside of actors the loop looks at the token behind a wait, where the scan waits for it. -/
theorem Follows.wait {keyword : Token} {cursor : Cursor} (follows : Follows text front loop state)
    (further : Gave text (front ++ [⟨cursor.lineOf keyword.start, .ok keyword.kind⟩]) cursor)
    (nothing : cursor.ahead = none) (waits : Grammar.isWait keyword.kind = true) (outside : loop.current = none) :
    Turned text front loop ((Loop.wait { loop with cursor } keyword).map .onward) := by
  have looks : Loop.wait { loop with cursor } keyword = _ := wait_of_outside outside
  have goes : (front ++ [(⟨cursor.lineOf keyword.start, .ok keyword.kind⟩ : Item)]).foldlM State.step State.initial =
      .ok { loop.state with mode := .behindWait (cursor.lineOf keyword.start) } := by
    rw [foldlM_append_singleton follows.goes, follows.step further, State.outsideHeader_of_isWait waits]
    simp only [State.waiting, Loop.state, outside]
  have sees := further.check nothing .openParen rfl
  rw [looks]
  unfold refuseCall
  generalize cursor.check (Kind.alike .openParen) = seen at sees ⊢
  cases sees with
  | ended none_left gave =>
    refine .onward (by simp) ⟨gave, goes, rfl, .inr ⟨_, rfl, ?_⟩⟩ (.refl ..)
    simp [none_left, firstKind]
  | @token line kind rest behind first gave =>
    cases paren : Kind.alike .openParen kind with
    | false =>
      have notParen : kind ≠ .openParen := fun same => by simp [(alike_openParen kind).mpr same] at paren
      refine .onward (by simp) ⟨gave, goes, rfl, .inr ⟨_, rfl, ?_⟩⟩ (.refl ..)
      simpa [first, firstKind, Except.toOption] using notParen
    | true =>
      obtain rfl := (alike_openParen kind).mp paren
      have listed := gave.items
      rw [first] at listed
      exact .stopped (scanItems_eq_error_of_step listed goes rfl)
  | fault listed => exact .stopped (scanItems_eq_error_of_step listed goes rfl)

/-- The brace or the semicolon that ends a header declares its actor. -/
theorem Headed.declare {line : Nat} {cursor : Cursor} {result : Except Stop (Header × Token × Loop)}
    (headed : Headed text front loop.state line { loop with cursor } result) :
    Turned text front loop
      ((result.bind fun (header, stop, behind) => behind.declare line header stop).map .onward) := by
  cases headed with
  | stopped fails => exact .stopped fails
  | @ended read header stop behind heads gave stops room =>
    change Turned text front loop ((Loop.declare { loop with cursor := behind } line header stop).map .onward)
    rw [declare_eq room]
    have turned := turned_of_step heads gave rfl fun after ends =>
      State.mode_of_declare ((State.step_ending stops).symm.trans ends)
    rwa [State.step_ending stops] at turned

/-- A declaration is read as the scan reads it. -/
theorem Follows.actor {keyword : Token} {cursor : Cursor} (follows : Follows text front loop state)
    (further : Gave text (front ++ [⟨cursor.lineOf keyword.start, .ok keyword.kind⟩]) cursor)
    (isActor : keyword.kind = .actor) :
    Turned text front loop ((Loop.actor { loop with cursor } keyword).map .onward) := by
  have step := follows.step further
  rw [isActor] at step further
  rcases Option.eq_none_or_eq_some loop.current with outside | ⟨position, inside⟩
  · have reads : Loop.actor { loop with cursor } keyword = _ := actor_of_outside outside
    have goes : (front ++ [(⟨cursor.lineOf keyword.start, .ok .actor⟩ : Item)]).foldlM State.step State.initial =
        .ok { loop.state with mode := .header (cursor.lineOf keyword.start) 0 [] } := by
      rw [foldlM_append_singleton follows.goes, step]
      simp only [State.outsideHeader, Loop.state, outside]
    have headed : Headed text front loop.state (cursor.lineOf keyword.start) { loop with cursor }
        (header { loop with cursor } (cursor.lineOf keyword.start) 0 []) :=
      headed_header further goes (Nat.le_refl 0) (Nat.zero_le _)
    rw [reads]
    exact headed.declare
  · have nested : Loop.actor { loop with cursor } keyword = _ := actor_of_current inside
    have refused : state.step ⟨cursor.lineOf keyword.start, .ok .actor⟩ =
        .error ⟨cursor.lineOf keyword.start, .nestedActor⟩ := by
      rw [step]
      simp only [State.outsideHeader, Loop.state, inside]
    have listed := further.items
    rw [List.append_assoc] at listed
    rw [nested]
    exact .stopped (scanItems_eq_error_of_step listed follows.goes refused)

/-- What a token does, behind it. -/
theorem Follows.act {token : Token} {cursor : Cursor} (follows : Follows text front loop state)
    (further : Gave text (front ++ [⟨cursor.lineOf token.start, .ok token.kind⟩]) cursor)
    (nothing : cursor.ahead = none) (more : token.kind ≠ .endOfText) :
    Turned text front loop (Loop.act { loop with cursor } token) := by
  by_cases isActor : token.kind = .actor
  · rw [act_of_actor isActor]
    exact follows.actor further isActor
  by_cases looks : Grammar.isWait token.kind = true ∧ loop.current = none
  · obtain ⟨waits, outside⟩ := looks
    rw [act_of_isWait waits]
    exact follows.wait further nothing waits outside
  · exact follows.plain further more isActor fun waits outside => looks ⟨waits, outside⟩

/-- A turn of the loop is a part of the scan, and nothing in it traps. -/
theorem Follows.turn (follows : Follows text front loop state) : Turned text front loop loop.turn := by
  have takes := takes_next follows.gave
  unfold Loop.turn
  generalize loop.next = taken at takes
  cases takes with
  | @ended token cursor none_left last =>
    change Turned text front loop (Loop.act { loop with cursor } token)
    rw [act_of_endOfText last]
    exact follows.finish none_left
  | token further more nothing => exact follows.act further nothing more
  | fault listed => exact .stopped (scanItems_eq_error_of_step listed follows.goes rfl)

/-! ### The loop -/

/-- Whatever the loop holds between two turns, the scan holds behind some front of the items. -/
theorem Reaches.follows {behind : Loop} (reaches : (atStart (.ofText text)).Reaches behind) :
    ∃ front state, Follows text front behind state := by
  induction reaches with
  | here => exact ⟨[], State.initial, follows_atStart text⟩
  | onward _ goesOn ih =>
    obtain ⟨front, state, follows⟩ := ih
    have turned := follows.turn
    rw [goesOn] at turned
    cases turned with
    | onward _ further => exact ⟨_, _, further⟩

/-- The loop ends, with the verdict of the scan. -/
theorem Follows.ends (follows : Follows text front loop state) :
    loop.Ends ((scanItems (Token.items text)).mapError .fault) := by
  induction room : loop.cursor.items.length using Nat.strongRecOn generalizing front loop state with
  | ind room ih =>
    have turned := follows.turn
    cases turn : loop.turn with
    | error stop =>
      rw [turn] at turned
      cases turned with
      | stopped fails =>
        rw [fails]
        exact .stopped turn
    | ok goesOn =>
      rw [turn] at turned
      cases turned with
      | finished accepted =>
        rw [accepted]
        exact .finished turn
      | @onward next read _ some_read further keeps =>
        have before := congrArg List.length follows.gave.items
        have behind := congrArg List.length further.gave.items
        have read_pos := List.length_pos_iff.mpr some_read
        simp only [List.length_append] at before behind
        exact .onward turn (ih _ (by omega) further rfl)

end Loop

/-- A source is scanned to an end whatever it is, with its verdict and without a trap. -/
theorem scans_iff {source : String} {result : Except Stop (List Declaration)} :
    Scans source result ↔ result = (scan source).mapError .fault := by
  have ends := (Loop.follows_atStart source.toList).ends
  constructor
  · rintro (trapped | ⟨starts, looped⟩)
    · rw [Cursor.ofTextChecked_eq] at trapped
      cases trapped
    · rw [Cursor.ofTextChecked_eq] at starts
      cases starts
      exact looped.unique ends
  · rintro rfl
    exact .looped (Cursor.ofTextChecked_eq _) ends

theorem not_scans_trap {source : String} {trap : Trap} : ¬ Scans source (.error (.trap trap)) := by
  rw [scans_iff]
  cases scan source <;> simp [Except.mapError]

theorem scans_fault_iff {source : String} {fault : Located Fault} :
    Scans source (.error (.fault fault)) ↔ scan source = .error fault := by
  rw [scans_iff]
  cases scan source <;> simp [Except.mapError, eq_comm]

theorem scans_ok_iff {source : String} {declarations : List Declaration} :
    Scans source (.ok declarations) ↔ scan source = .ok declarations := by
  rw [scans_iff]
  cases scan source <;> simp [Except.mapError, eq_comm]

end Actor

end ActorSurface
