import ActorSurface.Proofs.Actor.Unmatched
import ActorSurface.Proofs.Actor.Violations

/-!
Where the scan stands behind some tokens. It is in a header where the tokens end in one (`Reached.mode_of_endsInHeader`), in
the body of an actor where they leave one open (`current_isSome_iff`), and waits for a parenthesis where the last of them
is a wait outside of both (`mode_behindWait_iff`).
-/

namespace ActorSurface

namespace Actor

open Token (Kind)

namespace State

open Grammar (OpensBody EndsInHeader Heads openHeader height)

/-! ### Runs in two parts -/

theorem exists_run_of_append {state behind : State} {one other : List Lexeme}
    (goes : state.run (one ++ other) = .ok behind) :
    ∃ middle, state.run one = .ok middle ∧ middle.run other = .ok behind := by
  have split : state.run (one ++ other) = (state.run one).bind fun next => next.run other := List.foldlM_append
  rw [split] at goes
  cases first : state.run one with
  | error fault =>
    rw [first] at goes
    cases goes
  | ok middle =>
    rw [first] at goes
    exact ⟨middle, rfl, goes⟩

theorem exists_read_of_cons {state behind : State} {lexeme : Lexeme} {rest : List Lexeme}
    (goes : state.run (lexeme :: rest) = .ok behind) :
    ∃ next, state.read lexeme = .ok next ∧ next.run rest = .ok behind := by
  change (state.read lexeme).bind (fun next => next.run rest) = .ok behind at goes
  cases first : state.read lexeme with
  | error fault =>
    rw [first] at goes
    cases goes
  | ok next =>
    rw [first] at goes
    exact ⟨next, rfl, goes⟩

/-- The last of some tokens is read in the state behind the others. -/
theorem exists_read_of_append_singleton {state behind : State} {lexemes : List Lexeme} {lexeme : Lexeme}
    (goes : state.run (lexemes ++ [lexeme]) = .ok behind) :
    ∃ middle, state.run lexemes = .ok middle ∧ middle.read lexeme = .ok behind := by
  obtain ⟨middle, front, last⟩ := exists_run_of_append goes
  obtain ⟨next, read, rest⟩ := exists_read_of_cons last
  obtain rfl := Except.ok.inj rest
  exact ⟨middle, front, read⟩

/-! ### Modes -/

section

variable {state : State} {lexemes : List Lexeme}

theorem Reached.openHeader_eq_none (reached : Reached state lexemes) (outside : Mode.Outside state.mode) :
    openHeader lexemes = none := by
  obtain ⟨shown, shows, -⟩ := reached.shows outside
  exact shows.closed

/-- In a header the tokens end in it, and the scan holds what it asks of the header. -/
theorem Reached.endsInHeader {line parens : Nat} {kinds : List Kind} (reached : Reached state lexemes)
    (mode : state.mode = .header line parens kinds) :
    ∃ keyword header, EndsInHeader lexemes keyword header ∧ line = keyword.line ∧
      parens = Grammar.openParens (header.map Located.value) ∧ kinds.reverse = header.map Located.value := by
  cases reached with
  | outside => cases mode
  | behindWait => cases mode
  | body => cases mode
  | @header blocks lexemes header declared keyword opened isActor unbroken =>
    obtain ⟨shown, shows, -⟩ := opened.shows
    cases mode
    exact ⟨keyword, header, ⟨lexemes, rfl, isActor, shows.closed, unbroken⟩, rfl, rfl, by simp⟩

/-- Where the tokens end in a header the scan is in it. -/
theorem Reached.mode_of_endsInHeader {keyword : Lexeme} {header : List Lexeme} (reached : Reached state lexemes)
    (ends : EndsInHeader lexemes keyword header) :
    state.mode = .header keyword.line (Grammar.openParens (header.map Located.value))
      (header.map Located.value).reverse := by
  cases mode : state.mode with
  | outside =>
    have closed := reached.openHeader_eq_none (by simp [Mode.Outside, mode])
    rw [ends.openHeader] at closed
    cases closed
  | behindWait line =>
    have closed := reached.openHeader_eq_none (by simp [Mode.Outside, mode])
    rw [ends.openHeader] at closed
    cases closed
  | header line parens kinds =>
    obtain ⟨other, others, endsToo, rfl, rfl, same⟩ := reached.endsInHeader mode
    obtain ⟨rfl, rfl⟩ := ends.unique endsToo
    rw [← same, List.reverse_reverse]

/-- Where no header is open the scan stands outside of headers. -/
theorem Reached.mode_outside (reached : Reached state lexemes) (closed : openHeader lexemes = none) :
    Mode.Outside state.mode := by
  intro line parens kinds mode
  obtain ⟨keyword, header, ends, -⟩ := reached.endsInHeader mode
  rw [ends.openHeader] at closed
  cases closed

/-- In the body of an actor the scan waits for nothing. -/
theorem Reached.mode_of_current (reached : Reached state lexemes) (inside : state.current.isSome = true) :
    state.mode = .outside := by
  cases reached with
  | outside => rfl
  | behindWait => cases inside
  | header => cases inside
  | body => rfl

end

/-! ### Steps outside of headers -/

/-- What a kind does outside of headers, where it is not refused. -/
inductive Goes (state : State) (line : Nat) : Kind → State → Prop
  | heading : state.current = none → Goes state line .actor { state with mode := .header line 0 [] }
  | opening : Goes state line .openBrace { state with blocks := ⟨line, none⟩ :: state.blocks, mode := .outside }
  | closing {block : Block} {blocks : List Block} : state.blocks = block :: blocks →
      Goes state line .closeBrace { state with
        blocks, current := if block.actor.isSome then none else state.current, mode := .outside }
  | counted {kind : Kind} {position : Nat} : Grammar.isWait kind = true → state.current = some position →
      Goes state line kind { state with
        declarations := state.declarations.modify position Declaration.addWait, mode := .outside }
  | waits {kind : Kind} : Grammar.isWait kind = true → state.current = none →
      Goes state line kind { state with mode := .behindWait line }
  | other {kind : Kind} : Grammar.isStructural kind = false → Grammar.isWait kind = false →
      Goes state line kind { state with mode := .outside }

theorem goes_of_waiting {state next : State} {line : Nat} {kind : Kind} (waits : Grammar.isWait kind = true)
    (ends : state.waiting line = .ok next) : Goes state line kind next := by
  unfold waiting at ends
  split at ends
  next position current =>
    obtain rfl := Except.ok.inj ends
    exact .counted waits current
  next current =>
    obtain rfl := Except.ok.inj ends
    exact .waits waits current

theorem goes_of_outsideHeader {state next : State} {line : Nat} {kind : Kind}
    (ends : state.outsideHeader line kind = .ok next) : Goes state line kind next := by
  unfold outsideHeader at ends
  split at ends
  next =>
    split at ends
    next => cases ends
    next current =>
      obtain rfl := Except.ok.inj ends
      exact .heading current
  next =>
    obtain rfl := Except.ok.inj ends
    exact .opening
  next =>
    split at ends
    next => cases ends
    next block blocks opened =>
      obtain rfl := Except.ok.inj ends
      exact .closing opened
  next => exact goes_of_waiting rfl ends
  next => exact goes_of_waiting rfl ends
  next notActor notOpen notClose notWait notWaitNext =>
    obtain rfl := Except.ok.inj ends
    refine .other ?_ ?_
    · simpa [Grammar.isStructural] using ⟨⟨notActor, notOpen⟩, notClose⟩
    · simpa [Grammar.isWait] using ⟨notWait, notWaitNext⟩

/-- Outside of headers a token is read by the rules there. -/
theorem goes_of_read {state next : State} {lexeme : Lexeme} (outside : Mode.Outside state.mode)
    (ends : state.read lexeme = .ok next) : Goes state lexeme.line lexeme.value next := by
  obtain ⟨blocks, declarations, current, mode⟩ := state
  cases mode with
  | outside => exact goes_of_outsideHeader ends
  | header line parens kinds => exact absurd rfl (outside line parens kinds)
  | behindWait line =>
    by_cases paren : lexeme.value = .openParen
    · simp [read, step, paren] at ends
    · exact goes_of_outsideHeader (by simpa [read, step, paren] using ends)

theorem mode_ne_behindWait_of_inHeader {state next : State} {start parens line : Nat} {kinds : List Kind} {kind : Kind}
    (ends : state.inHeader start parens kinds line kind = .ok next) (place : Nat) : next.mode ≠ .behindWait place := by
  unfold inHeader declare at ends
  repeat' split at ends
  all_goals cases ends
  all_goals simp

/-- A token leaves the scan behind a wait just where it is one, outside of headers and bodies. -/
theorem mode_eq_behindWait_iff {state behind : State} {lexeme : Lexeme} {line : Nat}
    (ends : state.read lexeme = .ok behind) :
    behind.mode = .behindWait line ↔
      Grammar.isWait lexeme.value = true ∧ Mode.Outside state.mode ∧ state.current = none ∧ lexeme.line = line := by
  constructor
  · intro mode
    have outside : Mode.Outside state.mode := by
      intro start parens kinds header
      simp only [read, step, header] at ends
      exact mode_ne_behindWait_of_inHeader ends line mode
    have goes := goes_of_read outside ends
    generalize lexeme.value = kind at goes
    cases goes with
    | heading => cases mode
    | opening => cases mode
    | closing => cases mode
    | counted => cases mode
    | waits waits current =>
      cases mode
      exact ⟨waits, outside, current, rfl⟩
    | other => cases mode
  · rintro ⟨waits, outside, current, rfl⟩
    have goes := goes_of_read outside ends
    generalize lexeme.value = kind at goes waits
    cases goes with
    | heading => cases waits
    | opening => cases waits
    | closing => cases waits
    | counted _ some_position =>
      rw [current] at some_position
      cases some_position
    | waits => rfl
    | other _ notWait =>
      rw [waits] at notWait
      cases notWait

/-! ### Bodies -/

/-- The scan is in the body of an actor, with some number of blocks open in it. -/
structure Inside (state : State) (depth : Nat) : Prop where
  current : state.current.isSome = true
  mode : state.mode = .outside
  blocks : ∃ inner outer, state.blocks = inner ++ outer ∧ inner.length = depth ∧ ∀ block ∈ inner, block.actor = none

/-- In a body a token leaves the scan in it, unless it closes the body. -/
theorem Inside.goes {state next : State} {depth : Nat} {lexeme : Lexeme} (inside : Inside state depth)
    (goes : Goes state lexeme.line lexeme.value next) (above : 0 ≤ depth + height [lexeme]) :
    ∃ deeper : Nat, Inside next deeper ∧ (deeper : Int) = depth + height [lexeme] := by
  obtain ⟨current, mode, inner, outer, opened, rfl, plain⟩ := inside
  obtain ⟨line, kind⟩ := lexeme
  have level : ∀ notStructural : Grammar.isStructural kind = false, height [⟨line, kind⟩] = 0 := fun notStructural =>
    have ⟨_, notOpen, notClose⟩ := Grammar.isStructural_eq_false_iff.mp notStructural
    Grammar.height_other notOpen notClose
  cases goes with
  | heading none =>
    rw [none] at current
    cases current
  | opening =>
    refine ⟨inner.length + 1, ⟨current, rfl, ⟨line, none⟩ :: inner, outer, ?_, rfl, by simpa using plain⟩, ?_⟩
    · simp [opened]
    · rw [Grammar.height_open rfl]
      simp
  | @closing block blocks nonempty =>
    rw [Grammar.height_close rfl] at above ⊢
    cases inner with
    | nil => simp at above
    | cons own inner =>
      obtain ⟨rfl, rfl⟩ := List.cons.inj (opened.symm.trans nonempty)
      have stays : (if own.actor.isSome then none else state.current) = state.current := by
        simp [plain own List.mem_cons_self]
      refine ⟨inner.length, ⟨?_, rfl, inner, outer, rfl, rfl, ?_⟩, by simp⟩
      · rw [stays]
        exact current
      · exact fun block listed => plain block (List.mem_cons_of_mem own listed)
  | counted waits =>
    have flat := level (Grammar.isStructural_of_isWait waits)
    exact ⟨inner.length, ⟨current, rfl, inner, outer, opened, rfl, plain⟩, by omega⟩
  | waits _ none =>
    rw [none] at current
    cases current
  | other notStructural =>
    have flat := level notStructural
    exact ⟨inner.length, ⟨current, rfl, inner, outer, opened, rfl, plain⟩, by omega⟩

/-- In a body the scan stays in it as long as no more blocks are closed than are open there. -/
theorem Inside.run {state behind : State} {depth : Nat} {lexemes : List Lexeme} (inside : Inside state depth)
    (goes : state.run lexemes = .ok behind) (above : ∀ front, front <+: lexemes → 0 ≤ depth + height front) :
    ∃ deeper : Nat, Inside behind deeper := by
  induction lexemes generalizing state depth with
  | nil =>
    obtain rfl := Except.ok.inj goes
    exact ⟨depth, inside⟩
  | cons lexeme rest ih =>
    obtain ⟨next, read, onward⟩ := exists_read_of_cons goes
    have step := goes_of_read (by simp [Mode.Outside, inside.mode]) read
    obtain ⟨deeper, insideToo, risen⟩ := inside.goes step (above [lexeme] (by simp))
    refine ih insideToo onward fun front early => ?_
    have later := above (lexeme :: front) (by simpa using early)
    rw [Grammar.height_cons] at later
    omega

/-- The brace that ends a header leaves the scan in the body of its actor. -/
theorem inside_of_opening {state next : State} {line : Nat} {header : Header} {name : String} {opening : Lexeme}
    (mode : state.mode = .header line 0 header.reverse) (heads : Heads header name) (opens : opening.value = .openBrace)
    (ends : state.read opening = .ok next) : Inside next 0 := by
  have declares : state.declare line header true opening.line = .ok next := by
    simpa [read, step, mode, inHeader, opens] using ends
  simp only [declare, heads.returns, heads.named, if_true] at declares
  obtain rfl := Except.ok.inj declares
  exact ⟨rfl, rfl, [], _, rfl, rfl, by simp⟩

/-- The scan is in the body of an actor just where its tokens leave one open. -/
theorem current_isSome_iff {state : State} {lexemes : List Lexeme} (goes : initial.run lexemes = .ok state) :
    state.current.isSome = true ↔ OpensBody lexemes := by
  constructor
  · intro current
    cases reached_of_run goes with
    | outside => cases current
    | behindWait => cases current
    | header => cases current
    | @body blocks inside lexemes header body declared keyword opening name opened isActor heads opens openedInside =>
      obtain ⟨shown, shows, -⟩ := opened.shows
      have leaves := openedInside.leavesOpen (.none Grammar.balanced_nil)
      refine .opened shows.closed isActor heads opens fun front early => ?_
      have above := leaves.nowhere front early
      unfold height at above
      omega
  · rintro @⟨outer, header, inside, keyword, opening, name, closed, isActor, heads, opens, nowhere⟩
    obtain ⟨ended, front, onward⟩ := exists_run_of_append goes
    obtain ⟨next, read, goesOn⟩ := exists_read_of_cons onward
    have ends : EndsInHeader (outer ++ keyword :: header) keyword header := ⟨outer, rfl, isActor, closed, heads.unbroken⟩
    have mode := (reached_of_run front).mode_of_endsInHeader ends
    rw [heads.closed] at mode
    obtain ⟨deeper, stays⟩ := (inside_of_opening mode heads opens read).run goesOn fun front early => by
      have above := nowhere front early
      unfold height
      omega
    exact stays.current

/-- Behind a wait outside of headers and bodies, and only there, the scan waits for its parenthesis. -/
theorem mode_behindWait_iff {state : State} {lexemes : List Lexeme} {line : Nat} (goes : initial.run lexemes = .ok state) :
    state.mode = .behindWait line ↔ ∃ front wait, lexemes = front ++ [wait] ∧ Grammar.isWait wait.value = true ∧
      openHeader front = none ∧ ¬ OpensBody front ∧ wait.line = line := by
  rcases List.eq_nil_or_concat lexemes with rfl | ⟨before, last, rfl⟩
  · obtain rfl := Except.ok.inj goes
    simp [initial]
  rw [List.concat_eq_append] at goes ⊢
  obtain ⟨middle, early, read⟩ := exists_read_of_append_singleton goes
  have reached := reached_of_run early
  have outside : Mode.Outside middle.mode ↔ openHeader before = none :=
    ⟨reached.openHeader_eq_none, reached.mode_outside⟩
  have notInside : middle.current = none ↔ ¬ OpensBody before := by
    rw [← current_isSome_iff early]
    simp
  rw [mode_eq_behindWait_iff read, outside, notInside]
  constructor
  · rintro ⟨waits, closed, open_body, rfl⟩
    exact ⟨before, last, rfl, waits, closed, open_body, rfl⟩
  · rintro ⟨front, wait, split, waits, closed, notInside, rfl⟩
    obtain ⟨rfl, same⟩ := List.append_inj' split rfl
    obtain rfl := List.cons.inj same |>.1
    exact ⟨waits, closed, notInside, rfl⟩

end State

end Actor

end ActorSurface
