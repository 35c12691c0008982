import ActorSurface.Proofs.Actor.Acceptance
import Mathlib.Tactic.SplitIfs

/-!
What the functions of the scan refuse. For each of them this is one `iff`: the arguments on which it fails, and the fault
with its line. A scan that fails does so at its first item that a step refuses, or at the end
(`scanItems_eq_error_iff`); before that item there are tokens only.
-/

namespace ActorSurface

namespace Actor

open Token (Item Kind)

/-- Steps one after the other fail at the first item that a step refuses. -/
theorem foldlM_eq_error_iff {σ α ε : Type} {step : σ → α → Except ε σ} {state : σ} {items : List α} {fault : ε} :
    items.foldlM step state = .error fault ↔
      ∃ before item behind reached, items = before ++ item :: behind ∧ before.foldlM step state = .ok reached ∧
        step reached item = .error fault := by
  constructor
  · intro fails
    induction items generalizing state with
    | nil => cases fails
    | cons item rest ih =>
      rw [List.foldlM_cons] at fails
      cases first : step state item with
      | error other =>
        rw [first] at fails
        exact ⟨[], item, rest, state, rfl, rfl, first.trans fails⟩
      | ok next =>
        rw [first] at fails
        obtain ⟨before, refused, behind, reached, rfl, goes, refuses⟩ := ih fails
        refine ⟨item :: before, refused, behind, reached, rfl, ?_, refuses⟩
        rw [List.foldlM_cons, first]
        exact goes
  · rintro ⟨before, item, behind, reached, rfl, goes, refuses⟩
    rw [List.foldlM_append, goes]
    show (step reached item).bind (fun next => behind.foldlM step next) = .error fault
    rw [refuses]
    rfl

namespace State

variable {state : State} {fault : Located Fault}

/-- A declaration is refused for its return type, and else for its name. -/
theorem declare_eq_error_iff {line : Nat} {header : Header} {hasBody : Bool} {stop : Nat} :
    state.declare line header hasBody stop = .error fault ↔
      header.returnsFutureOrVoid = false ∧ ⟨line, .returnType⟩ = fault ∨
        header.returnsFutureOrVoid = true ∧ header.name? = none ∧ ⟨line, .missingName⟩ = fault := by
  unfold declare
  cases header.returnsFutureOrVoid with
  | false => simp
  | true =>
    cases header.name? with
    | none => simp
    | some name => cases hasBody <;> simp

/-- A header is refused where it ends. -/
theorem inHeader_eq_error_iff {start parens line : Nat} {kinds : List Kind} {kind : Kind} :
    state.inHeader start parens kinds line kind = .error fault ↔
      parens = 0 ∧ (kind = .openBrace ∨ kind = .semicolon) ∧
        (Header.returnsFutureOrVoid kinds.reverse = false ∧ ⟨start, .returnType⟩ = fault ∨
          Header.returnsFutureOrVoid kinds.reverse = true ∧ Header.name? kinds.reverse = none ∧
            ⟨start, .missingName⟩ = fault) := by
  unfold inHeader
  split_ifs with opens stops
  · simp [declare_eq_error_iff, opens]
  · simp [declare_eq_error_iff, stops]
  · have goesOn : ¬ (parens = 0 ∧ (kind = .openBrace ∨ kind = .semicolon)) := by
      rintro ⟨closed, brace | stop⟩
      · exact opens ⟨closed, brace⟩
      · exact stops ⟨closed, stop⟩
    simp only [false_iff]
    exact fun ⟨closed, ends, _⟩ => goesOn ⟨closed, ends⟩

/-- Outside of headers an actor in another one is refused, and a brace that closes nothing. -/
theorem outsideHeader_eq_error_iff {line : Nat} {kind : Kind} :
    state.outsideHeader line kind = .error fault ↔
      kind = .actor ∧ state.current.isSome = true ∧ ⟨line, .nestedActor⟩ = fault ∨
        kind = .closeBrace ∧ state.blocks = [] ∧ ⟨line, .unmatchedClose⟩ = fault := by
  cases kind with
  | actor => cases current : state.current <;> simp [outsideHeader, current]
  | closeBrace => cases opened : state.blocks <;> simp [outsideHeader, opened]
  | wait => cases current : state.current <;> simp [outsideHeader, waiting, current]
  | waitNext => cases current : state.current <;> simp [outsideHeader, waiting, current]
  | _ => simp [outsideHeader]

/-- Behind a wait outside of actors a parenthesis is refused, on the line of that wait. -/
theorem step_behindWait_eq_error_iff {line place : Nat} {kind : Kind} (mode : state.mode = .behindWait place) :
    state.step ⟨line, .ok kind⟩ = .error fault ↔
      kind = .openParen ∧ ⟨place, .waitOutsideActor⟩ = fault ∨
        kind ≠ .openParen ∧ state.outsideHeader line kind = .error fault := by
  simp only [step, mode]
  by_cases paren : kind = .openParen
  · simp [paren]
  · simp [paren]

/-- Where the scan stands outside of headers. -/
def Mode.Outside (mode : Mode) : Prop :=
  ∀ line parens kinds, mode ≠ .header line parens kinds

/-- At the end a header that is open is refused, and else the innermost block that is. -/
theorem finish_eq_error_iff :
    state.finish = .error fault ↔
      (∃ line parens kinds, state.mode = .header line parens kinds ∧ ⟨line, .unterminatedDeclaration⟩ = fault) ∨
        Mode.Outside state.mode ∧
          ∃ block blocks, state.blocks = block :: blocks ∧ ⟨block.line, .unmatchedOpen⟩ = fault := by
  obtain ⟨blocks, declarations, current, mode⟩ := state
  cases mode with
  | header line parens kinds => simp [finish, Mode.Outside]
  | outside => cases blocks <;> simp [finish, Mode.Outside]
  | behindWait line => cases blocks <;> simp [finish, Mode.Outside]

end State

/-- The scan of some items fails at the first that a step refuses, or where all go through at the end. -/
theorem scanItems_eq_error_iff {items : List Item} {fault : Located Fault} :
    scanItems items = .error fault ↔
      (∃ before item behind state, items = before.map Lexeme.item ++ item :: behind ∧
        State.initial.run before = .ok state ∧ state.step item = .error fault) ∨
      ∃ lexemes state, items = lexemes.map Lexeme.item ∧ State.initial.run lexemes = .ok state ∧
        state.finish = .error fault := by
  have run : ∀ lexemes : List Lexeme, (lexemes.map Lexeme.item).foldlM State.step State.initial =
      State.initial.run lexemes := foldlM_items State.initial
  constructor
  · intro fails
    unfold scanItems at fails
    cases goes : items.foldlM State.step State.initial with
    | error other =>
      rw [goes] at fails
      obtain rfl := Except.error.inj fails
      obtain ⟨before, item, behind, state, rfl, through, refuses⟩ := foldlM_eq_error_iff.mp goes
      obtain ⟨lexemes, rfl⟩ := lexemes_of_foldlM through
      exact .inl ⟨lexemes, item, behind, state, rfl, run lexemes ▸ through, refuses⟩
    | ok state =>
      rw [goes] at fails
      obtain ⟨lexemes, rfl⟩ := lexemes_of_foldlM goes
      exact .inr ⟨lexemes, state, rfl, run lexemes ▸ goes, fails⟩
  · unfold scanItems
    rintro (⟨before, item, behind, state, rfl, through, refuses⟩ | ⟨lexemes, state, rfl, through, refuses⟩)
    · have fails : (before.map Lexeme.item ++ item :: behind).foldlM State.step State.initial = .error fault :=
        foldlM_eq_error_iff.mpr ⟨_, item, behind, state, rfl, (run before).trans through, refuses⟩
      rw [fails]
      rfl
    · rw [run lexemes, through]
      exact refuses

end Actor

end ActorSurface
