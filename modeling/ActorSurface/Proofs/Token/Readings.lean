import ActorSurface.Token.Cursor

/-!
The readings of a text as a cursor delivers them. No piece is the end of the text (`cut_kind_ne_endOfText`),
so the tokens of a text that has no lexical fault are all of its readings, and then the end
(`tokens_ofText_iff`).
-/

namespace ActorSurface

namespace Token

theorem ofWord_ne_endOfText (word : String) : Kind.ofWord word ≠ .endOfText := by
  unfold Kind.ofWord Kind.keywords
  simp only [List.lookup_cons, List.lookup_nil]
  repeat' split
  all_goals simp

theorem ofCharacter_ne_endOfText (char : Char) : Kind.ofCharacter char ≠ .endOfText := by
  unfold Kind.ofCharacter
  split <;> simp

/-- A piece is never the end of the text. -/
theorem cut_kind_ne_endOfText (char : Char) (text : List Char) :
    (Piece.cut char text).1.form ≠ .token .endOfText := by
  unfold Piece.cut Piece.cutBlanks Piece.cutWord Piece.cutNumber Piece.cutDirective Piece.cutString
    Piece.cutQuote Piece.cutSlash
  repeat' split
  all_goals simp [ofWord_ne_endOfText, ofCharacter_ne_endOfText]

theorem pieces_kind_ne_endOfText (text : List Char) {piece : Piece} (member : piece ∈ pieces text) :
    piece.form ≠ .token .endOfText := by
  fun_induction pieces text with
  | case1 => cases member
  | case2 char text cut ih =>
    rcases List.mem_cons.mp member with rfl | later
    · exact cut_kind_ne_endOfText char text
    · exact ih later

theorem readingsAt_kind_ne_endOfText {offset : Nat} {pieces : List Piece} {token : Token}
    (others : ∀ piece ∈ pieces, piece.form ≠ .token .endOfText)
    (member : .ok token ∈ readingsAt offset pieces) : token.kind ≠ .endOfText := by
  induction pieces generalizing offset with
  | nil => cases member
  | cons piece rest ih =>
    rcases List.mem_append.mp member with here | later
    · have form := others piece List.mem_cons_self
      obtain ⟨what, text⟩ := piece
      cases what with
      | skipped _ => simp [Piece.reading?] at here
      | malformed _ => simp [Piece.reading?] at here
      | token kind =>
        simp only [Piece.reading?, Option.toList_some, List.mem_singleton, Except.ok.injEq] at here
        subst here
        exact fun same => form (congrArg Form.token same)
    · exact ih (fun other listed => others other (List.mem_cons_of_mem _ listed)) later

theorem readings_kind_ne_endOfText {text : List Char} {token : Token} (member : .ok token ∈ readings text) :
    token.kind ≠ .endOfText :=
  readingsAt_kind_ne_endOfText (fun _ => pieces_kind_ne_endOfText text) member

/-! ### Places -/

/-- What is read of a text is what one of its pieces is read as, at the offset of that piece. -/
theorem exists_cut_of_mem_readingsAt (offset : Nat) (text : List Char) {reading : Reading}
    (listed : reading ∈ readingsAt offset (pieces text)) :
    ∃ front char back, text = front ++ char :: back ∧
      (Piece.cut char back).1.reading? (offset + Utf8.size front) = some reading := by
  fun_induction pieces text generalizing offset with
  | case1 => cases listed
  | case2 char text cut ih =>
    rw [readingsAt, List.mem_append] at listed
    rcases listed with here | later
    · exact ⟨[], char, text, rfl, Option.mem_toList.mp here⟩
    · obtain ⟨front, next, back, split, read⟩ := ih _ later
      refine ⟨cut.1.text ++ front, next, back, ?_, ?_⟩
      · rw [List.append_assoc, ← split, Piece.cut_append]
      · rw [Utf8.size_append, ← Nat.add_assoc]
        exact read

/-- The mark at which a lexical fault is found: a quote, or the opening of a comment. -/
def LexicalFault.mark : LexicalFault → List Char
  | .unterminatedString => ['"']
  | .unterminatedComment => ['/', '*']
  | .strayQuote => ['\'']

/-- A malformed piece begins with the mark of its fault. -/
theorem mark_of_cut {char : Char} {text : List Char} {fault : LexicalFault}
    (malformed : (Piece.cut char text).1.form = .malformed fault) : fault.mark <+: char :: text := by
  unfold Piece.cut Piece.cutBlanks Piece.cutWord Piece.cutNumber Piece.cutDirective Piece.cutString
    Piece.cutQuote Piece.cutSlash at malformed
  repeat' split at malformed
  all_goals cases malformed
  all_goals simp_all [LexicalFault.mark]

/-- A lexical fault of a text is found at the mark that stands at its offset. -/
theorem mark_of_mem_readings {text : List Char} {misread : Misread} (listed : .error misread ∈ readings text) :
    ∃ front back, text = front ++ back ∧ Utf8.size front = misread.offset ∧ misread.fault.mark <+: back := by
  obtain ⟨front, char, back, split, read⟩ := exists_cut_of_mem_readingsAt 0 text listed
  rw [Piece.reading?] at read
  split at read
  · cases read
  · cases read
  · rename_i fault malformed
    cases read
    exact ⟨front, char :: back, split, (Nat.zero_add _).symm, mark_of_cut malformed⟩

namespace Cursor

/-- Readings before the end of a text are its tokens just where none of them is a fault. -/
theorem tokensOf_append_end_iff {readings : List Reading} {tokens : List Token} {stop : Token}
    (others : ∀ token, .ok token ∈ readings → token.kind ≠ .endOfText) (ends : stop.kind = .endOfText) :
    tokensOf (readings ++ [.ok stop]) = (tokens ++ [stop], none) ↔ readings = tokens.map .ok := by
  induction readings generalizing tokens with
  | nil => cases tokens <;> simp [tokensOf, ends]
  | cons reading rest ih =>
    cases reading with
    | error misread => cases tokens <;> simp [tokensOf]
    | ok token =>
      have kind : token.kind ≠ .endOfText := others token List.mem_cons_self
      have behind : ∀ other, .ok other ∈ rest → other.kind ≠ .endOfText :=
        fun other listed => others other (List.mem_cons_of_mem _ listed)
      cases tokens with
      | nil =>
        have different : token ≠ stop := fun same => kind (same ▸ ends)
        simp [tokensOf, kind, different]
      | cons head tail =>
        have later := @ih tail behind
        simp only [List.cons_append, tokensOf, kind, if_false, List.map_cons]
        constructor
        · intro same
          simp only [Prod.mk.injEq, List.cons.injEq] at same
          obtain ⟨⟨rfl, tokens⟩, faultless⟩ := same
          rw [later.mp (Prod.ext tokens faultless)]
        · intro same
          simp only [List.cons.injEq, Except.ok.injEq] at same
          obtain ⟨rfl, rest⟩ := same
          rw [later.mpr rest]

/-- The tokens of a whole text are its readings, where none of these is a fault. -/
theorem tokens_ofText_iff (text : List Char) (tokens : List Token) :
    (ofText text).tokens = (tokens ++ [atEnd (Utf8.size text)], none) ↔ readings text = tokens.map .ok :=
  tokensOf_append_end_iff (fun _ => readings_kind_ne_endOfText) rfl

end Cursor

end Token

end ActorSurface
