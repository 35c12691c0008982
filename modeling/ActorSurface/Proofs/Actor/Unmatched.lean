import ActorSurface.Proofs.Actor.Balance
import ActorSurface.Proofs.Actor.Faults

/-!
The scan's verdict on braces. It is right about the braces that stand outside of headers: they are balanced in
an accepted source, and not where a brace is found unmatched. Of the braces in headers it knows nothing, so it
is right about all of them where each header is balanced in itself (`validates_outside_headers`).
-/

namespace ActorSurface

namespace Actor

open Token (Kind)

open Grammar (Items Body Heads Balanced Shows LeavesOpen HasHeader bare height openHeader)

namespace State

/-! ### Open blocks -/

theorem Opened.shows {follow : Option Kind} {blocks : List Block} {lexemes : List Lexeme} {declared : List Declaration}
    (opened : Opened follow blocks lexemes declared) :
    ∃ shown, Shows lexemes shown ∧ LeavesOpen shown (blocks.map Block.line) := by
  induction opened with
  | none derived =>
    obtain ⟨shown, shows, balanced⟩ := derived.shows_balanced
    exact ⟨shown, shows, .none balanced⟩
  | block _ opens derived ih =>
    obtain ⟨shown, shows, leaves⟩ := ih
    obtain ⟨others, behind, balanced⟩ := derived.shows_balanced
    exact ⟨_, shows.append (behind.cons (by simp [opens])), leaves.block opens balanced⟩

theorem OpenedInside.shows {blocks : List Block} {body : List Lexeme} (opened : OpenedInside blocks body) :
    Shows body body := by
  induction opened with
  | none derived => exact derived.shows
  | block _ opens derived ih => exact ih.append (derived.shows.cons (by simp [opens]))

/-- The blocks in a body are open behind those around it. -/
theorem OpenedInside.leavesOpen {blocks : List Block} {body outer : List Lexeme} {lines : List Nat}
    (opened : OpenedInside blocks body) (around : LeavesOpen outer lines) :
    LeavesOpen (outer ++ body) (blocks.map Block.line ++ lines) := by
  induction opened with
  | none derived => exact around.append derived.balanced
  | block _ opens derived ih => simpa using ih.block opens derived.balanced

/-- Outside of headers, the blocks that the scan holds open are those that the tokens before it leave open. -/
theorem Reached.shows {state : State} {lexemes : List Lexeme} (reached : Reached state lexemes)
    (outside : Mode.Outside state.mode) :
    ∃ shown, Shows lexemes shown ∧ LeavesOpen shown (state.blocks.map Block.line) := by
  cases reached with
  | outside opened => exact (opened none).shows
  | behindWait opened => exact (opened none (by simp)).shows
  | header => exact absurd rfl (outside _ _ _)
  | @body blocks inside lexemes header body declared keyword opening name opened isActor heads opens openedInside =>
    obtain ⟨shown, shows, leaves⟩ := opened.shows
    have heading := Grammar.shows_heading isActor heads (.inl opens)
    have plain : Grammar.Balanced [keyword] := .cons (by simp [isActor]) (by simp [isActor]) Grammar.balanced_nil
    have around := openedInside.leavesOpen ((leaves.append plain).block opens Grammar.balanced_nil)
    exact ⟨_, by simpa using shows.append (heading.append openedInside.shows), by simpa using around⟩

theorem Reached.shows_height {state : State} {lexemes : List Lexeme} (reached : Reached state lexemes)
    (outside : Mode.Outside state.mode) :
    ∃ shown, Shows lexemes shown ∧ height shown = state.blocks.length := by
  obtain ⟨shown, shows, leaves⟩ := reached.shows outside
  exact ⟨shown, shows, by rw [leaves.height, List.length_map]⟩

/-! ### Unmatched braces -/

/-- The two faults that tell of a brace without its partner. -/
def Unmatched (fault : Fault) : Prop :=
  fault.message = "unmatched '\x7d'" ∨ fault.message = "unmatched '\x7b'"

theorem unmatched_iff {fault : Fault} : Unmatched fault ↔ fault = .unmatchedClose ∨ fault = .unmatchedOpen := by
  cases fault with
  | lexical fault => cases fault <;> simp [Unmatched, Fault.message, Token.LexicalFault.message]
  | _ => simp [Unmatched, Fault.message]

theorem outsideHeader_unmatched {state : State} {line : Nat} {kind : Kind} {fault : Located Fault}
    (refuses : state.outsideHeader line kind = .error fault) (unmatched : Unmatched fault.value) :
    state.blocks = [] ∧ kind = .closeBrace := by
  rcases outsideHeader_eq_error_iff.mp refuses with ⟨-, -, rfl⟩ | ⟨closes, none_open, -⟩
  · simp [unmatched_iff] at unmatched
  · exact ⟨none_open, closes⟩

theorem inHeader_not_unmatched {state : State} {start parens line : Nat} {kinds : List Kind} {kind : Kind}
    {fault : Located Fault} (refuses : state.inHeader start parens kinds line kind = .error fault) :
    ¬ Unmatched fault.value := by
  obtain ⟨-, -, ⟨-, rfl⟩ | ⟨-, -, rfl⟩⟩ := inHeader_eq_error_iff.mp refuses
  · simp [unmatched_iff]
  · simp [unmatched_iff]

/-- A token is an unmatched brace only outside of headers and of all blocks. -/
theorem read_unmatched {state : State} {lexeme : Lexeme} {fault : Located Fault}
    (refuses : state.read lexeme = .error fault) (unmatched : Unmatched fault.value) :
    Mode.Outside state.mode ∧ state.blocks = [] ∧ lexeme.value = .closeBrace := by
  obtain ⟨blocks, declarations, current, mode⟩ := state
  cases mode with
  | outside => exact ⟨by simp [Mode.Outside], outsideHeader_unmatched refuses unmatched⟩
  | header start parens kinds => exact absurd unmatched (inHeader_not_unmatched refuses)
  | behindWait line =>
    refine ⟨by simp [Mode.Outside], ?_⟩
    rcases (step_behindWait_eq_error_iff rfl).mp refuses with ⟨-, rfl⟩ | ⟨-, readOutside⟩
    · simp [unmatched_iff] at unmatched
    · exact outsideHeader_unmatched readOutside unmatched

/-- At the end an unmatched brace is one that opens a block, outside of headers. -/
theorem finish_unmatched {state : State} {fault : Located Fault} (refuses : state.finish = .error fault)
    (unmatched : Unmatched fault.value) :
    Mode.Outside state.mode ∧ state.blocks ≠ [] := by
  rcases finish_eq_error_iff.mp refuses with ⟨_, _, _, -, rfl⟩ | ⟨outside, block, blocks, opened, -⟩
  · simp [unmatched_iff] at unmatched
  · exact ⟨outside, by simp [opened]⟩

/-- Where the scan finds a brace unmatched, some front of the text closes its headers and is not level: it
    closes more than it opens, or it is the whole text and opens more than it closes. -/
theorem exists_front_of_unmatched {lexemes : List Lexeme} {fault : Located Fault}
    (fails : (initial.run lexemes).bind finish = .error fault) (unmatched : Unmatched fault.value) :
    ∃ front shown, front <+: lexemes ∧ Shows front shown ∧
      (height shown < 0 ∨ front = lexemes ∧ 0 < height shown) := by
  cases goes : initial.run lexemes with
  | ok behind =>
    rw [goes] at fails
    obtain ⟨outside, more⟩ := finish_unmatched fails unmatched
    have reached := reached_of_run goes
    obtain ⟨shown, shows, risen⟩ := reached.shows_height outside
    have some_block := List.length_pos_iff.mpr more
    exact ⟨lexemes, shown, List.prefix_rfl, shows, .inr ⟨rfl, by omega⟩⟩
  | error other =>
    rw [goes] at fails
    obtain rfl := Except.error.inj fails
    obtain ⟨before, lexeme, behind, state, rfl, read, refuses⟩ := foldlM_eq_error_iff.mp goes
    -- All blocks before the brace are closed outside of headers, so the front that ends with it falls below.
    obtain ⟨outside, none_open, closes⟩ := read_unmatched refuses unmatched
    have reached := reached_of_run read
    obtain ⟨shown, shows, risen⟩ := reached.shows_height outside
    have closing : Shows [lexeme] [lexeme] := Grammar.shows_plain (by simp [closes])
    refine ⟨before ++ [lexeme], shown ++ [lexeme], ⟨behind, by simp⟩, shows.append closing, .inl ?_⟩
    rw [Grammar.height_append, Grammar.height_close closes, risen, none_open]
    simp

end State

/-! ### Verdicts -/

/-- The scan's verdict on a source is right about the braces of some tokens: in a source that it accepts they
    are balanced, and in one where it finds a brace unmatched they are not. -/
structure Validates (source : String) (lexemes : List Lexeme) : Prop where
  accepted : ∀ declared, scan source = .ok declared → Balanced lexemes
  refused : ∀ fault, scan source = .error fault → State.Unmatched fault.value → ¬ Balanced lexemes

/-- A text is not balanced where a front of it, or all of it, is not level. -/
theorem not_balanced_of_front {front lexemes : List Lexeme} (early : front <+: lexemes)
    (uneven : height front < 0 ∨ front = lexemes ∧ 0 < height front) : ¬ Balanced lexemes := by
  intro balanced
  obtain ⟨nowhere, total⟩ := Grammar.balanced_iff.mp balanced
  rcases uneven with below | ⟨rfl, above⟩
  · have := nowhere front early
    omega
  · omega

/-- The scan of a source that lexes is right about the braces outside of headers, and about all braces where each
    header is balanced in itself. -/
theorem validates_outside_headers {source : String} (lexes : Lexes source) :
    Validates source (bare (lexemes source)) ∧
      ((∀ header, HasHeader (lexemes source) header → Balanced header) → Validates source (lexemes source)) := by
  refine ⟨⟨fun declared accepted => ?_, fun fault fails unmatched => ?_⟩,
    fun inside => ⟨fun declared accepted => ?_, fun fault fails unmatched => ?_⟩⟩
  · obtain ⟨shown, shows, balanced⟩ := (file_of_scan accepted).shows_balanced
    rwa [shows.bare]
  · rw [scan_of_lexes lexes] at fails
    obtain ⟨front, shown, ⟨behind, whole⟩, ⟨-, rfl⟩, uneven⟩ := State.exists_front_of_unmatched fails unmatched
    have early : bare front <+: bare (lexemes source) := by
      rw [← whole, Grammar.bare_append]
      exact List.prefix_append ..
    exact not_balanced_of_front early (uneven.imp_right fun ⟨all, above⟩ => ⟨by rw [all], above⟩)
  · obtain ⟨shown, shows, balanced⟩ := (file_of_scan accepted).shows_balanced
    exact shows.balanced balanced inside
  · rw [scan_of_lexes lexes] at fails
    obtain ⟨front, shown, early, ⟨closed, rfl⟩, uneven⟩ := State.exists_front_of_unmatched fails unmatched
    have same : height front = height (bare front) := by
      obtain ⟨behind, whole⟩ := early
      have risen := Grammar.height_eq_bare fun header has => inside header (whole ▸ has.append behind)
      rw [risen, closed, Option.getD_none, Grammar.height_nil, add_zero]
    rw [← same] at uneven
    exact not_balanced_of_front early uneven

/-- The source of a block and of an actor is validated. -/
theorem block_and_actor_validated :
    Lexes "\x7b ACTOR void f() \x7b wait(g()); \x7d \x7d" ∧
      Validates "\x7b ACTOR void f() \x7b wait(g()); \x7d \x7d"
        (bare (lexemes "\x7b ACTOR void f() \x7b wait(g()); \x7d \x7d")) := by
  have lexes : Lexes "\x7b ACTOR void f() \x7b wait(g()); \x7d \x7d" := by decide +kernel
  exact ⟨lexes, (validates_outside_headers lexes).1⟩

/-- That the scan is right about all braces is not so: a header hides one that closes nothing. -/
theorem not_validates_all_braces : ¬ ∀ source, Lexes source → Validates source (lexemes source) := by
  intro claimed
  have lexes : Lexes "ACTOR void f() \x7d \x7b \x7d" := by decide +kernel
  have accepted : scan "ACTOR void f() \x7d \x7b \x7d" = .ok [⟨"f", 1, true, 0⟩] := by decide +kernel
  have total := ((claimed _ lexes).accepted _ accepted).total
  have closed : Grammar.closeBraces (lexemes "ACTOR void f() \x7d \x7b \x7d") = 2 := by decide +kernel
  have opened : Grammar.openBraces (lexemes "ACTOR void f() \x7d \x7b \x7d") = 1 := by decide +kernel
  omega

end Actor

end ActorSurface
