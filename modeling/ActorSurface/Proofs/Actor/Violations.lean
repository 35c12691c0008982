import ActorSurface.Proofs.Actor.Balance
import ActorSurface.Proofs.Actor.Keywords

/-!
What is wrong with a source, told of its tokens alone. A violation is decided behind some tokens, by the next item or by
the end of the text, and it is blamed on the line of a token that has been read by then (`Violates.line_cases`).
-/

namespace ActorSurface

namespace Actor

open Token (Item)

namespace Grammar

/-- Tokens that leave the body of an actor open: behind the brace that opens it there are nowhere more blocks closed than
    opened. -/
inductive OpensBody : List Lexeme → Prop
  | opened {outer header inside : List Lexeme} {keyword opening : Lexeme} {name : String} : openHeader outer = none →
      keyword.value = .actor → Heads (header.map Located.value) name → opening.value = .openBrace →
      (∀ front, front <+: inside → closeBraces front ≤ openBraces front) →
      OpensBody (outer ++ keyword :: header ++ opening :: inside)

/-- Tokens that end in a header, as far as it goes, and its keyword. -/
def EndsInHeader (lexemes : List Lexeme) (keyword : Lexeme) (header : List Lexeme) : Prop :=
  ∃ outer, lexemes = outer ++ keyword :: header ∧ keyword.value = .actor ∧ openHeader outer = none ∧
    Unbroken (header.map Located.value)

/-- A violation that is decided behind some tokens, by the next item or, where there is none, by the end of the text; and
    the line that it is blamed on. -/
inductive Violates (before : List Lexeme) : Option Item → Located Fault → Prop
  /-- A lexical fault is decided where it is read. -/
  | lexical {line : Nat} {fault : Token.LexicalFault} :
      Violates before (some ⟨line, .error fault⟩) ⟨line, .lexical fault⟩
  /-- An actor begins while the body of one is open. -/
  | nestedActor {keyword : Lexeme} : keyword.value = .actor → OpensBody before →
      Violates before (some keyword.item) ⟨keyword.line, .nestedActor⟩
  /-- A header ends that does not return a future or void. It is blamed on its keyword. -/
  | returnType {keyword stop : Lexeme} {header : List Lexeme} : EndsInHeader before keyword header →
      openParens (header.map Located.value) = 0 → (stop.value = .openBrace ∨ stop.value = .semicolon) →
      Header.returnsFutureOrVoid (header.map Located.value) = false →
      Violates before (some stop.item) ⟨keyword.line, .returnType⟩
  /-- A header ends that returns one of them and names no actor. It is blamed on its keyword. -/
  | missingName {keyword stop : Lexeme} {header : List Lexeme} : EndsInHeader before keyword header →
      openParens (header.map Located.value) = 0 → (stop.value = .openBrace ∨ stop.value = .semicolon) →
      Header.returnsFutureOrVoid (header.map Located.value) = true → Header.name? (header.map Located.value) = none →
      Violates before (some stop.item) ⟨keyword.line, .missingName⟩
  /-- The text ends in a header. It is blamed on its keyword. -/
  | unterminatedDeclaration {keyword : Lexeme} {header : List Lexeme} : EndsInHeader before keyword header →
      Violates before none ⟨keyword.line, .unterminatedDeclaration⟩
  /-- A block is closed outside of headers, where all that were opened there are closed. -/
  | unmatchedClose {closing : Lexeme} : openHeader before = none → closing.value = .closeBrace →
      Balanced (bare before) → Violates before (some closing.item) ⟨closing.line, .unmatchedClose⟩
  /-- The text ends outside of headers with a block open. The innermost is blamed. -/
  | unmatchedOpen {opening : Lexeme} : openHeader before = none → Innermost (bare before) opening →
      Violates before none ⟨opening.line, .unmatchedOpen⟩
  /-- A wait outside of headers and bodies is called. The wait is blamed, and the parenthesis decides it. -/
  | waitOutsideActor {front : List Lexeme} {wait paren : Lexeme} : before = front ++ [wait] → isWait wait.value = true →
      openHeader front = none → ¬ OpensBody front → paren.value = .openParen →
      Violates before (some paren.item) ⟨wait.line, .waitOutsideActor⟩

theorem EndsInHeader.openHeader {lexemes header : List Lexeme} {keyword : Lexeme}
    (ends : EndsInHeader lexemes keyword header) : openHeader lexemes = some header := by
  obtain ⟨outer, split, isActor, outside, unbroken⟩ := ends
  exact openHeader_eq_some_iff.mpr ⟨outer, keyword, split, isActor, outside, unbroken⟩

/-- The header that tokens end in is one, behind one keyword. -/
theorem EndsInHeader.unique {lexemes header others : List Lexeme} {keyword other : Lexeme}
    (one : EndsInHeader lexemes keyword header) (two : EndsInHeader lexemes other others) :
    keyword = other ∧ header = others := by
  obtain rfl : header = others := Option.some.inj (one.openHeader.symm.trans two.openHeader)
  obtain ⟨outer, split, -⟩ := one
  obtain ⟨outside, rfl, -⟩ := two
  have same := (List.append_inj' split rfl).2
  exact ⟨(List.cons.inj same).1.symm, rfl⟩

/-- A lexical fault decides itself, whatever stands before it. -/
theorem Violates.of_error {before : List Lexeme} {line : Nat} {fault : Token.LexicalFault} {other : Located Fault}
    (violates : Violates before (some ⟨line, .error fault⟩) other) : other = ⟨line, .lexical fault⟩ := by
  cases violates
  rfl

/-- A violation is blamed on the line of a token before it or of the item that decides it. -/
theorem Violates.line_cases {before : List Lexeme} {next : Option Item} {fault : Located Fault}
    (violates : Violates before next fault) :
    (∃ lexeme ∈ before, lexeme.line = fault.line) ∨ ∃ item ∈ next, item.line = fault.line := by
  have inHeader : ∀ {keyword : Lexeme} {header : List Lexeme}, EndsInHeader before keyword header → keyword ∈ before := by
    rintro keyword header ⟨outer, rfl, -⟩
    simp
  cases violates with
  | lexical => exact .inr ⟨_, rfl, rfl⟩
  | nestedActor => exact .inr ⟨_, rfl, rfl⟩
  | returnType ends => exact .inl ⟨_, inHeader ends, rfl⟩
  | missingName ends => exact .inl ⟨_, inHeader ends, rfl⟩
  | unterminatedDeclaration ends => exact .inl ⟨_, inHeader ends, rfl⟩
  | unmatchedClose => exact .inr ⟨_, rfl, rfl⟩
  | @unmatchedOpen opening _ innermost =>
    obtain ⟨front, behind, shown, -⟩ := innermost
    have listed : opening ∈ bare before := by simp [shown]
    exact .inl ⟨opening, (bareThrough_sublist none before).mem listed, rfl⟩
  | waitOutsideActor split => exact .inl ⟨_, by simp [split], rfl⟩

end Grammar

end Actor

end ActorSurface
