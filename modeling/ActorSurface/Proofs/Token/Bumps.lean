import ActorSurface.Proofs.Trap
import ActorSurface.Token.Cursor

/-!
Block comments passed over by offset. The closing mark of a comment is sought in the text behind the opening one,
and the place where reading goes on is moved there, or to the end of the text, by a number of bytes. That place
always stands between two characters, so a text is cut into its pieces without a trap (`piecesChecked_eq`).
-/

namespace ActorSurface

namespace Token

/-- The offset of the first mark in a text that closes a comment. -/
def closingMark? : List Char → Option Nat
  | [] => none
  | '*' :: '/' :: _ => some 0
  | char :: text => (closingMark? text).map (char.utf8Size + ·)

/-- The piece that an opened comment makes of a text, moved over by bytes: through its closing mark or, where there
    is none, all of the text. -/
def Piece.cutComment (text : List Char) : Except Trap (Piece × List Char) :=
  match closingMark? text with
  | some offset =>
    (Trap.bump (offset + 2) text).map fun (body, rest) => (⟨.skipped .blockComment, '/' :: '*' :: body⟩, rest)
  | none =>
    (Trap.bump (Utf8.size text) text).map fun (body, rest) =>
      (⟨.malformed .unterminatedComment, '/' :: '*' :: body⟩, rest)

/-- The piece that begins with a character. Only comments are passed over by offset. -/
def Piece.cutChecked : Char → List Char → Except Trap (Piece × List Char)
  | '/', '*' :: text => cutComment text
  | char, text => .ok (cut char text)

theorem closingMark?_eq_none {text : List Char} (unclosed : commentBody text = none) : closingMark? text = none := by
  fun_induction commentBody text with
  | case1 => rfl
  | case2 => cases unclosed
  | case3 char text other ih =>
    rw [closingMark?, ih (Option.map_eq_none_iff.mp unclosed)]
    · rfl
    · exact other

/-- The mark that closes a comment is the end of its body. -/
theorem exists_closingMark? {text body rest : List Char} (closed : commentBody text = some (body, rest)) :
    ∃ offset, closingMark? text = some offset ∧ offset + 2 = Utf8.size body := by
  fun_induction commentBody text generalizing body rest with
  | case1 => cases closed
  | case2 text =>
    cases closed
    exact ⟨0, rfl, rfl⟩
  | case3 char text other ih =>
    obtain ⟨⟨inner, behind⟩, found, same⟩ := Option.map_eq_some_iff.mp closed
    obtain ⟨offset, mark, size⟩ := ih found
    cases same
    refine ⟨char.utf8Size + offset, ?_, ?_⟩
    · rw [closingMark?, mark]
      · rfl
      · exact other
    · rw [Utf8.size, ← size, Nat.add_assoc]

/-- The bytes to the end of a comment are those of its body, and there the text is cut. -/
theorem Piece.cutComment_eq (text : List Char) : cutComment text = .ok (cutSlash ('*' :: text)) := by
  unfold cutComment cutSlash
  cases found : commentBody text with
  | none =>
    have whole : Trap.bump (Utf8.size text) text = .ok (text, []) := by
      simpa using Trap.bump_append text []
    simp only [closingMark?_eq_none found, whole, found]
    rfl
  | some cut =>
    obtain ⟨body, rest⟩ := cut
    obtain ⟨offset, mark, size⟩ := exists_closingMark? found
    have behind : Trap.bump (offset + 2) text = .ok (body, rest) := by
      rw [size, ← commentBody_append found]
      exact Trap.bump_append body rest
    simp only [mark, behind, found]
    rfl

theorem Piece.cutChecked_eq (char : Char) (text : List Char) : cutChecked char text = .ok (cut char text) := by
  unfold cutChecked
  split
  next text => rw [cutComment_eq]; rfl
  next => rfl

/-- The pieces of a text, with the comments passed over by offset. -/
def piecesChecked : List Char → Except Trap (List Piece)
  | [] => .ok []
  | char :: text =>
    match _cut : Piece.cutChecked char text with
    | .error trap => .error trap
    | .ok (piece, rest) => (piecesChecked rest).map (piece :: ·)
termination_by text => text.length
decreasing_by
  rw [Piece.cutChecked_eq] at _cut
  have shorter := Piece.cut_rest_length_le char text
  rw [Except.ok.inj _cut] at shorter
  exact Nat.lt_succ_of_le shorter

/-- No comment is passed over to a place that does not stand between two characters. -/
theorem piecesChecked_eq (text : List Char) : piecesChecked text = .ok (pieces text) := by
  fun_induction pieces text with
  | case1 => rw [piecesChecked]
  | case2 char text cut ih =>
    rw [piecesChecked]
    split
    next trap fails =>
      rw [Piece.cutChecked_eq] at fails
      cases fails
    next piece rest goes =>
      rw [Piece.cutChecked_eq] at goes
      have same : cut = (piece, rest) := Except.ok.inj goes
      rw [same] at ih ⊢
      rw [ih]
      rfl

/-- A cursor at the beginning of a text, with the comments of the text passed over by offset. -/
def Cursor.ofTextChecked (text : List Char) : Except Trap Cursor :=
  (piecesChecked text).map fun pieces => ⟨.ofText text, Utf8.size text, readingsAt 0 pieces, none⟩

theorem Cursor.ofTextChecked_eq (text : List Char) : ofTextChecked text = .ok (ofText text) := by
  rw [ofTextChecked, piecesChecked_eq]
  rfl

end Token

end ActorSurface
