import ActorSurface.Engine.Surface
import ActorSurface.Proofs.Actor.Faults
import ActorSurface.Proofs.Actor.Modes
import ActorSurface.Proofs.Token.Items

/-!
The faults that the scan reports. In a state that it reaches, a step refuses an item just for a violation that the item
decides (`step_eq_error_iff_violates`), and so does the end; over a whole source the violation that is decided first is
reported, on the line that it is blamed on (`scan_eq_error_iff_refusal`).
-/

namespace ActorSurface

namespace Actor

open Token (Item Kind)

open Grammar (Violates LeavesOpen Balanced openHeader bare)

namespace State

/-! ### Refusals -/

section

variable {state : State} {before : List Lexeme} {fault : Located Fault}

/-- Outside of headers the scan holds the blocks that its tokens leave open there. -/
theorem leavesOpen_of_run (goes : initial.run before = .ok state) (closed : openHeader before = none) :
    LeavesOpen (bare before) (state.blocks.map Block.line) := by
  have reached := reached_of_run goes
  obtain ⟨shown, shows, leaves⟩ := reached.shows (reached.mode_outside closed)
  rwa [shows.bare]

theorem step_of_outside {line : Nat} {kind : Kind} (outside : Mode.Outside state.mode) (notParen : kind ≠ .openParen) :
    state.step ⟨line, .ok kind⟩ = state.outsideHeader line kind := by
  obtain ⟨blocks, declarations, current, mode⟩ := state
  cases mode with
  | outside => rfl
  | header start parens kinds => exact absurd rfl (outside start parens kinds)
  | behindWait place => simp [step, notParen]

theorem violates_of_outsideHeader {line : Nat} {kind : Kind} (goes : initial.run before = .ok state)
    (outside : Mode.Outside state.mode) (refuses : state.outsideHeader line kind = .error fault) :
    Violates before (some ⟨line, .ok kind⟩) fault := by
  rcases outsideHeader_eq_error_iff.mp refuses with ⟨rfl, inside, rfl⟩ | ⟨rfl, none_open, rfl⟩
  · exact @Violates.nestedActor before ⟨line, .actor⟩ rfl ((current_isSome_iff goes).mp inside)
  · have closed := (reached_of_run goes).openHeader_eq_none outside
    refine @Violates.unmatchedClose before ⟨line, .closeBrace⟩ closed rfl ?_
    exact (leavesOpen_of_run goes closed).balanced_iff.mpr (by simp [none_open])

theorem violates_of_inHeader {start parens line : Nat} {kinds : List Kind} {kind : Kind}
    (goes : initial.run before = .ok state) (mode : state.mode = .header start parens kinds)
    (refuses : state.inHeader start parens kinds line kind = .error fault) :
    Violates before (some ⟨line, .ok kind⟩) fault := by
  obtain ⟨keyword, header, ends, rfl, rfl, listed⟩ := (reached_of_run goes).endsInHeader mode
  rw [inHeader_eq_error_iff, listed] at refuses
  obtain ⟨closed, stops, ⟨returns, rfl⟩ | ⟨returns, named, rfl⟩⟩ := refuses
  · exact @Violates.returnType before keyword ⟨line, kind⟩ header ends closed stops returns
  · exact @Violates.missingName before keyword ⟨line, kind⟩ header ends closed stops returns named

/-- A step refuses an item just for a violation that the item decides. -/
theorem step_eq_error_iff_violates {item : Item} (goes : initial.run before = .ok state) :
    state.step item = .error fault ↔ Violates before (some item) fault := by
  have reached := reached_of_run goes
  constructor
  · intro refuses
    obtain ⟨line, value⟩ := item
    cases value with
    | error lexical =>
      obtain rfl := Except.error.inj refuses
      exact .lexical
    | ok kind =>
      cases mode : state.mode with
      | outside =>
        refine violates_of_outsideHeader goes (by simp [Mode.Outside, mode]) ?_
        simpa [step, mode] using refuses
      | header start parens kinds =>
        refine violates_of_inHeader goes mode ?_
        simpa [step, mode] using refuses
      | behindWait place =>
        rcases (step_behindWait_eq_error_iff mode).mp refuses with ⟨rfl, rfl⟩ | ⟨-, refusesToo⟩
        · obtain ⟨front, wait, split, waits, closed, notInside, rfl⟩ := (mode_behindWait_iff goes).mp mode
          exact @Violates.waitOutsideActor before front wait ⟨line, .openParen⟩ split waits closed notInside rfl
        · exact violates_of_outsideHeader goes (by simp [Mode.Outside, mode]) refusesToo
  · intro violates
    cases violates with
    | lexical => rfl
    | @nestedActor keyword isActor inside =>
      have current := (current_isSome_iff goes).mpr inside
      have outside : Mode.Outside state.mode := by simp [Mode.Outside, reached.mode_of_current current]
      rw [Lexeme.item, isActor, step_of_outside outside (by simp)]
      exact outsideHeader_eq_error_iff.mpr (.inl ⟨rfl, current, rfl⟩)
    | @returnType keyword stop header ends closed stops returns =>
      rw [step, reached.mode_of_endsInHeader ends]
      exact inHeader_eq_error_iff.mpr ⟨closed, stops, .inl ⟨by rwa [List.reverse_reverse], rfl⟩⟩
    | @missingName keyword stop header ends closed stops returns named =>
      rw [step, reached.mode_of_endsInHeader ends]
      refine inHeader_eq_error_iff.mpr ⟨closed, stops, .inr ?_⟩
      rw [List.reverse_reverse]
      exact ⟨returns, named, rfl⟩
    | @unmatchedClose closing closed closes balanced =>
      rw [Lexeme.item, closes, step_of_outside (reached.mode_outside closed) (by simp)]
      have none_open := (leavesOpen_of_run goes closed).balanced_iff.mp balanced
      exact outsideHeader_eq_error_iff.mpr (.inr ⟨rfl, List.map_eq_nil_iff.mp none_open, rfl⟩)
    | @waitOutsideActor front wait paren split waits closed notInside opens =>
      have mode := (mode_behindWait_iff goes).mpr ⟨front, wait, split, waits, closed, notInside, rfl⟩
      exact (step_behindWait_eq_error_iff mode).mpr (.inl ⟨opens, rfl⟩)

/-- The end refuses what was read just for a violation that the end decides. -/
theorem finish_eq_error_iff_violates (goes : initial.run before = .ok state) :
    state.finish = .error fault ↔ Violates before none fault := by
  have reached := reached_of_run goes
  rw [finish_eq_error_iff]
  constructor
  · rintro (⟨line, parens, kinds, mode, rfl⟩ | ⟨outside, block, blocks, opened, rfl⟩)
    · obtain ⟨keyword, header, ends, rfl, -⟩ := reached.endsInHeader mode
      exact .unterminatedDeclaration ends
    · have closed := reached.openHeader_eq_none outside
      have leaves := leavesOpen_of_run goes closed
      rw [opened, List.map_cons] at leaves
      obtain ⟨opening, innermost, same⟩ := Grammar.Innermost.of_line leaves
      rw [← same]
      exact .unmatchedOpen closed innermost
  · intro violates
    cases violates with
    | unterminatedDeclaration ends => exact .inl ⟨_, _, _, reached.mode_of_endsInHeader ends, rfl⟩
    | unmatchedOpen closed innermost =>
      obtain ⟨others, lines⟩ := innermost.line_eq (leavesOpen_of_run goes closed)
      obtain ⟨block, blocks, opened, same, -⟩ := List.map_eq_cons_iff.mp lines
      exact .inr ⟨reached.mode_outside closed, block, blocks, opened, by rw [same]⟩

end

/-- The scan goes through some tokens just where none of them decides a violation. -/
theorem exists_run_iff {lexemes : List Lexeme} :
    (∃ state, initial.run lexemes = .ok state) ↔
      ∀ front lexeme back, lexemes = front ++ lexeme :: back → ∀ fault, ¬ Violates front (some lexeme.item) fault := by
  constructor
  · rintro ⟨state, goes⟩ front lexeme back rfl fault violates
    obtain ⟨middle, early, late⟩ := exists_run_of_append goes
    obtain ⟨next, read, -⟩ := exists_read_of_cons late
    have refuses : middle.read lexeme = .error fault := (step_eq_error_iff_violates early).mpr violates
    rw [refuses] at read
    cases read
  · intro free
    cases goes : initial.run lexemes with
    | ok state => exact ⟨state, rfl⟩
    | error fault =>
      obtain ⟨front, lexeme, back, state, split, early, refuses⟩ := foldlM_eq_error_iff.mp goes
      exact absurd ((step_eq_error_iff_violates early).mp refuses) (free front lexeme back split fault)

end State

/-- A scan of items reports the violation that is decided first. -/
theorem scanItems_eq_error_iff_violates {items : List Item} {fault : Located Fault} :
    scanItems items = .error fault ↔ ∃ before rest, items = before.map Lexeme.item ++ rest ∧
      Violates before rest.head? fault ∧
      ∀ front lexeme back, before = front ++ lexeme :: back → ∀ other, ¬ Violates front (some lexeme.item) other := by
  rw [scanItems_eq_error_iff]
  constructor
  · rintro (⟨before, item, behind, state, split, goes, refuses⟩ | ⟨lexemes, state, split, goes, refuses⟩)
    · exact ⟨before, item :: behind, split, (State.step_eq_error_iff_violates goes).mp refuses,
        State.exists_run_iff.mp ⟨state, goes⟩⟩
    · exact ⟨lexemes, [], by simpa using split, (State.finish_eq_error_iff_violates goes).mp refuses,
        State.exists_run_iff.mp ⟨state, goes⟩⟩
  · rintro ⟨before, rest, split, violates, free⟩
    obtain ⟨state, goes⟩ := State.exists_run_iff.mpr free
    cases rest with
    | nil =>
      exact .inr ⟨before, state, by simpa using split, goes, (State.finish_eq_error_iff_violates goes).mpr violates⟩
    | cons item behind =>
      exact .inl ⟨before, item, behind, state, split, goes, (State.step_eq_error_iff_violates goes).mpr violates⟩

/-! ### Sources -/

/-- Why a source is refused: some of its tokens, with the readings behind them, and the fault. -/
structure Refusal (source : String) (tokens : List Token) (rest : List Token.Reading) (fault : Located Fault) : Prop where
  readings : Token.readings source.toList = tokens.map .ok ++ rest
  /-- Behind the tokens the next reading decides the violation, or else the end of the source. -/
  violates : Violates (tokens.map (.ofToken (.ofText source.toList)))
    (rest.head?.map (Token.itemOf (.ofText source.toList))) fault
  /-- No token before that decides one. -/
  first : ∀ front token back, tokens = front ++ token :: back → ∀ other,
    ¬ Violates (front.map (.ofToken (.ofText source.toList))) (some (Lexeme.ofToken (.ofText source.toList) token).item)
      other
  /-- A lexical fault is blamed on the line of its opening mark. -/
  mark : ∀ misread, rest.head? = some (.error misread) → ∃ front back, source.toList = front ++ back ∧
    Utf8.size front = misread.offset ∧ misread.fault.mark <+: back ∧
    fault = ⟨1 + newlines front, .lexical misread.fault⟩
  line_pos : 1 ≤ fault.line
  line_le : fault.line ≤ 1 + newlines source.toList
  failure : Failure.ofFault fault = .source fault.line fault.value.message

/-- The line of a violation in a text is that of some offset. -/
theorem exists_offset_of_violates {lines : LineTable} {tokens : List Token} {next : Option Token.Reading}
    {fault : Located Fault}
    (violates : Violates (tokens.map (.ofToken lines)) (next.map (Token.itemOf lines)) fault) :
    ∃ offset, fault.line = lines.lineAt offset := by
  rcases violates.line_cases with ⟨lexeme, listed, same⟩ | ⟨item, decides, same⟩
  · obtain ⟨token, -, rfl⟩ := List.mem_map.mp listed
    exact ⟨token.start, same.symm⟩
  · obtain ⟨reading, -, rfl⟩ := Option.map_eq_some_iff.mp decides
    cases reading with
    | ok token => exact ⟨token.start, same.symm⟩
    | error misread => exact ⟨misread.offset, same.symm⟩

/-- A lexical fault that is decided in a source stands at its mark, on the line of that mark. -/
theorem mark_of_violates {text : List Char} {tokens : List Token} {rest : List Token.Reading} {fault : Located Fault}
    (readings : Token.readings text = tokens.map .ok ++ rest)
    (violates : Violates (tokens.map (.ofToken (.ofText text))) (rest.head?.map (Token.itemOf (.ofText text))) fault)
    {misread : Token.Misread} (head : rest.head? = some (.error misread)) :
    ∃ front back, text = front ++ back ∧ Utf8.size front = misread.offset ∧ misread.fault.mark <+: back ∧
      fault = ⟨1 + newlines front, .lexical misread.fault⟩ := by
  have listed : .error misread ∈ Token.readings text := by
    rw [readings]
    exact List.mem_append_right _ (List.mem_of_head? head)
  obtain ⟨front, back, rfl, size, mark⟩ := Token.mark_of_mem_readings listed
  rw [head] at violates
  refine ⟨front, back, rfl, size, mark, ?_⟩
  rw [violates.of_error, ← size, LineTable.lineAt_size]

theorem failure_of_line_pos {fault : Located Fault} (positive : 1 ≤ fault.line) :
    Failure.ofFault fault = .source fault.line fault.value.message := by
  rw [Failure.ofFault, Failure.atLine, Nat.max_eq_left positive]

/-- The source is refused for a fault just where one of its violations is that fault and is decided first. The fault then
    has a line of the source, and it is an error of the source. -/
theorem scan_eq_error_iff_refusal (source : String) (fault : Located Fault) :
    scan source = .error fault ↔ ∃ tokens rest, Refusal source tokens rest fault := by
  rw [scan, scanItems_eq_error_iff_violates, Token.items]
  constructor
  · rintro ⟨before, rest, split, violates, free⟩
    obtain ⟨front, behind, readings, fronts, rfl⟩ := List.map_eq_append_iff.mp split
    obtain ⟨tokens, rfl, rfl⟩ := tokens_of_items fronts
    rw [List.head?_map] at violates
    obtain ⟨offset, line⟩ := exists_offset_of_violates violates
    obtain ⟨positive, bounded⟩ := LineTable.lineAt_bounds source.toList offset
    rw [← line] at positive bounded
    have first : ∀ early token late, tokens = early ++ token :: late → ∀ other,
        ¬ Violates (early.map (.ofToken (.ofText source.toList)))
          (some (Lexeme.ofToken (.ofText source.toList) token).item) other := by
      rintro early token late rfl
      exact free _ _ (late.map (.ofToken (.ofText source.toList))) (by simp)
    exact ⟨tokens, behind, readings, violates, first, fun misread => mark_of_violates readings violates, positive, bounded,
      failure_of_line_pos positive⟩
  · rintro ⟨tokens, rest, refusal⟩
    refine ⟨tokens.map (.ofToken (.ofText source.toList)), rest.map (Token.itemOf (.ofText source.toList)), ?_, ?_, ?_⟩
    · rw [refusal.readings, List.map_append, List.map_map, List.map_map]
      rfl
    · rw [List.head?_map]
      exact refusal.violates
    · intro front lexeme back split other
      obtain ⟨early, late, rfl, rfl, lates⟩ := List.map_eq_append_iff.mp split
      obtain ⟨token, more, rfl, rfl, -⟩ := List.map_eq_cons_iff.mp lates
      exact refusal.first early token more rfl other

/-- A header is decided by the semicolon that ends it, and blamed on its keyword. -/
example : scan "ACTOR int f(\n)\n; wait(g());" = .error ⟨1, .returnType⟩ := by decide +kernel

end Actor

end ActorSurface
