import ActorSurface.Proofs.Actor.Prefix
import ActorSurface.Proofs.Token.Readings

/-!
The scan accepts its grammar and nothing else. A source passes the scan exactly where all of it lexes and
its tokens are a file of the grammar, and the actors it answers are those of the derivation
(`scan_eq_ok_iff_file`). So a derivation lists the same actors as every other one.
-/

namespace ActorSurface

namespace Actor

open Token (Kind Cursor Item)

/-- A token of a text with the lines of that text, as the grammar reads it. -/
def Lexeme.ofToken (lines : LineTable) (token : Token) : Lexeme :=
  ⟨lines.lineAt token.start, token.kind⟩

/-- The item of a lexeme: what the scan is told of a token. -/
def Lexeme.item (lexeme : Lexeme) : Item :=
  ⟨lexeme.line, .ok lexeme.value⟩

theorem foldlM_items (state : State) (lexemes : List Lexeme) :
    (lexemes.map Lexeme.item).foldlM State.step state = state.run lexemes :=
  List.foldlM_map

/-- A scan that goes through has met no lexical fault. -/
theorem lexemes_of_foldlM {items : List Item} {state behind : State}
    (goes : items.foldlM State.step state = .ok behind) : ∃ lexemes : List Lexeme, items = lexemes.map Lexeme.item := by
  induction items generalizing state with
  | nil => exact ⟨[], rfl⟩
  | cons item rest ih =>
    obtain ⟨line, value⟩ := item
    cases value with
    | error fault => cases goes
    | ok kind =>
      rw [List.foldlM_cons] at goes
      cases first : state.step ⟨line, .ok kind⟩ with
      | error fault =>
        rw [first] at goes
        cases goes
      | ok next =>
        rw [first] at goes
        obtain ⟨lexemes, rfl⟩ := ih goes
        exact ⟨⟨line, kind⟩ :: lexemes, rfl⟩

/-- The verdict on tokens is that of the grammar. -/
theorem scanItems_eq_ok_iff (lexemes : List Lexeme) (declared : List Declaration) :
    scanItems (lexemes.map Lexeme.item) = .ok declared ↔ Grammar.File lexemes declared := by
  unfold scanItems
  rw [foldlM_items]
  constructor
  · intro accepted
    cases goes : State.initial.run lexemes with
    | error fault =>
      rw [goes] at accepted
      cases accepted
    | ok behind =>
      rw [goes] at accepted
      exact State.items_of_finish (State.reached_of_run goes) accepted
  · intro derived
    obtain ⟨mode, resting, goes⟩ := State.run_items derived [] [] .outside (State.Mode.resting_outside _)
    have started : State.initial.run lexemes = .ok ⟨[], declared.toArray, none, mode⟩ := goes
    rw [started]
    rcases resting with rfl | ⟨line, rfl, -⟩ <;> rfl

/-- The lexemes of readings without a fault. -/
theorem items_of_readings {text : List Char} {tokens : List Token}
    (faultless : Token.readings text = tokens.map .ok) :
    Token.items text = (tokens.map (Lexeme.ofToken (.ofText text))).map Lexeme.item := by
  rw [Token.items, faultless, List.map_map, List.map_map]
  rfl

/-- Items without a fault come from readings without one. -/
theorem tokens_of_items {lines : LineTable} {readings : List Token.Reading} {lexemes : List Lexeme}
    (faultless : readings.map (Token.itemOf lines) = lexemes.map Lexeme.item) :
    ∃ tokens : List Token, readings = tokens.map .ok ∧ lexemes = tokens.map (Lexeme.ofToken lines) := by
  induction readings generalizing lexemes with
  | nil => exact ⟨[], rfl, List.map_eq_nil_iff.mp faultless.symm⟩
  | cons reading rest ih =>
    cases lexemes with
    | nil => cases faultless
    | cons lexeme lexemes =>
      obtain ⟨same, onward⟩ := List.cons.inj faultless
      cases reading with
      | error misread =>
        have different := congrArg Located.value same
        cases different
      | ok token =>
        obtain ⟨tokens, rfl, rfl⟩ := ih onward
        obtain ⟨line, kind⟩ := lexeme
        cases same
        exact ⟨token :: tokens, rfl, rfl⟩

theorem readings_of_items {text : List Char} {lexemes : List Lexeme}
    (faultless : Token.items text = lexemes.map Lexeme.item) :
    ∃ tokens : List Token, Token.readings text = tokens.map .ok := by
  obtain ⟨tokens, readings, -⟩ := tokens_of_items faultless
  exact ⟨tokens, readings⟩

/-- A source passes the scan with some declarations just where it lexes throughout, without a fault, and its
    tokens before the end are a file of the grammar that declares them. -/
theorem scan_eq_ok_iff_file (source : String) (declared : List Declaration) :
    scan source = .ok declared ↔
      ∃ tokens : List Token,
        (Cursor.ofText source.toList).tokens =
          (tokens ++ [Token.atEnd (Utf8.size source.toList)], none) ∧
        Grammar.File (tokens.map (Lexeme.ofToken (.ofText source.toList))) declared := by
  unfold scan
  constructor
  · intro accepted
    have goes : ∃ behind, (Token.items source.toList).foldlM State.step State.initial = .ok behind := by
      unfold scanItems at accepted
      cases run : (Token.items source.toList).foldlM State.step State.initial with
      | error fault =>
        rw [run] at accepted
        cases accepted
      | ok behind => exact ⟨behind, rfl⟩
    obtain ⟨behind, goes⟩ := goes
    obtain ⟨lexemes, faultless⟩ := lexemes_of_foldlM goes
    obtain ⟨tokens, readings⟩ := readings_of_items faultless
    refine ⟨tokens, (Cursor.tokens_ofText_iff _ _).mpr readings, ?_⟩
    rw [items_of_readings readings] at accepted
    exact (scanItems_eq_ok_iff _ _).mp accepted
  · rintro ⟨tokens, lexes, derived⟩
    rw [items_of_readings ((Cursor.tokens_ofText_iff _ _).mp lexes)]
    exact (scanItems_eq_ok_iff _ _).mpr derived

end Actor

end ActorSurface
