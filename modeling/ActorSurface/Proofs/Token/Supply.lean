import ActorSurface.Proofs.Token.Segments

/-!
What a cursor gives, told by the items of its text. Behind a front of them a call gives the first of the others, or the
end where there is none (`Gave.next`); looking ahead tells what that one is and leaves it to come (`Gave.check`). A text
has no more items than bytes (`Gave.length_le`).
-/

namespace ActorSurface

namespace Token

namespace Cursor

/-- The readings that a cursor has still to give before the end of the text. -/
def left (cursor : Cursor) : List Reading :=
  match cursor.ahead with
  | none => cursor.pending
  | some token => if token.kind = .endOfText then cursor.pending else .ok token :: cursor.pending

/-- The items that a cursor has still to give before the end of the text. -/
def items (cursor : Cursor) : List Item :=
  cursor.left.map (itemOf cursor.lines)

/-- A call that gives a token of the text takes a reading. -/
theorem left_next_lt {cursor : Cursor} {token : Token} (takes : cursor.next.1 = .ok token)
    (more : token.kind ≠ .endOfText) : cursor.next.2.left.length < cursor.left.length := by
  obtain ⟨lines, size, pending, ahead⟩ := cursor
  cases ahead with
  | some kept =>
    obtain rfl : kept = token := Except.ok.inj takes
    simp [next, left, more]
  | none =>
    cases pending with
    | nil =>
      obtain rfl := Except.ok.inj takes
      exact absurd rfl more
    | cons reading pending => simp [next, read, left]

/-- No reading to come is the end of the text, and that is kept ahead only where none is to come. -/
structure Unended (cursor : Cursor) : Prop where
  pending : ∀ token, .ok token ∈ cursor.pending → token.kind ≠ .endOfText
  ahead : ∀ token, cursor.ahead = some token → token.kind = .endOfText → cursor.pending = []

/-- A cursor that has given a front of the items of a text, and has the others still to give. -/
structure Gave (text : List Char) (front : List Item) (cursor : Cursor) : Prop where
  items : Token.items text = front ++ cursor.items
  size : cursor.size = Utf8.size text
  unended : cursor.Unended

theorem gave_ofText (text : List Char) : Gave text [] (ofText text) :=
  ⟨rfl, rfl, fun _ => readings_kind_ne_endOfText, fun _ nothing => by cases nothing⟩

variable {text : List Char} {front : List Item} {cursor : Cursor}

theorem Gave.further {behind : Cursor} {item : Item} (gave : Gave text front cursor)
    (items : cursor.items = item :: behind.items) (size : behind.size = cursor.size) (unended : behind.Unended) :
    Gave text (front ++ [item]) behind := by
  refine ⟨?_, size.trans gave.size, unended⟩
  rw [gave.items, items, List.append_assoc, List.singleton_append]

/-- What the next call gives behind a front of the items: the end, the first of the others as a token, or its fault. -/
inductive Gives (text : List Char) (front : List Item) : Reading × Cursor → Prop
  | ended {token : Token} {behind : Cursor} : Token.items text = front → token.kind = .endOfText →
      Gives text front (.ok token, behind)
  | token {token : Token} {behind : Cursor} :
      Gave text (front ++ [⟨behind.lineOf token.start, .ok token.kind⟩]) behind → token.kind ≠ .endOfText →
      behind.ahead = none → Gives text front (.ok token, behind)
  | fault {misread : Misread} {behind : Cursor} {rest : List Item} :
      Token.items text = front ++ ⟨behind.lineOf misread.offset, .error misread.fault⟩ :: rest →
      Gives text front (.error misread, behind)

theorem Gave.next (gave : Gave text front cursor) : Gives text front cursor.next := by
  have listed := gave.items
  obtain ⟨lines, size, pending, ahead⟩ := cursor
  obtain ⟨others, kept⟩ := gave.unended
  cases ahead with
  | some token =>
    by_cases last : token.kind = .endOfText
    · obtain rfl : pending = [] := kept token rfl last
      exact .ended (by simpa [Cursor.items, left, last] using listed) last
    · refine .token (gave.further ?_ rfl ⟨others, fun _ none_kept => by cases none_kept⟩) last rfl
      simp [Cursor.items, left, last]
      rfl
  | none =>
    cases pending with
    | nil => exact .ended (by simpa [Cursor.items, left] using listed) rfl
    | cons reading pending =>
      cases reading with
      | error misread => exact .fault listed
      | ok token =>
        have behind : ∀ token, .ok token ∈ pending → token.kind ≠ .endOfText :=
          fun token listed => others token (List.mem_cons_of_mem _ listed)
        exact .token (gave.further rfl rfl ⟨behind, fun _ none_kept => by cases none_kept⟩)
          (others token List.mem_cons_self) rfl

/-- What looking ahead for a kind tells behind a front of the items: the kind of the first of the others, which stays to
    come, or its fault. At the end no kind of a token is found. -/
inductive Sees (text : List Char) (front : List Item) (expected : Kind) : Except Misread Bool × Cursor → Prop
  | ended {behind : Cursor} : behind.items = [] → Gave text front behind → Sees text front expected (.ok false, behind)
  | token {line : Nat} {kind : Kind} {rest : List Item} {behind : Cursor} :
      behind.items = ⟨line, .ok kind⟩ :: rest → Gave text front behind →
      Sees text front expected (.ok (expected.alike kind), behind)
  | fault {misread : Misread} {behind : Cursor} {rest : List Item} :
      Token.items text = front ++ ⟨behind.lineOf misread.offset, .error misread.fault⟩ :: rest →
      Sees text front expected (.error misread, behind)

theorem Gave.check (gave : Gave text front cursor) (nothing : cursor.ahead = none) (expected : Kind)
    (visible : expected.alike .endOfText = false) : Sees text front expected (cursor.check expected.alike) := by
  obtain ⟨listed, whole, others, -⟩ := gave
  obtain ⟨lines, size, pending, ahead⟩ := cursor
  obtain rfl : ahead = none := nothing
  cases pending with
  | nil =>
    have answer : (⟨lines, size, [], none⟩ : Cursor).check expected.alike =
        (.ok false, ⟨lines, size, [], some (atEnd size)⟩) := by
      rw [← visible]
      rfl
    rw [answer]
    exact .ended rfl ⟨listed, whole, others, fun _ _ _ => rfl⟩
  | cons reading pending =>
    cases reading with
    | error misread => exact .fault listed
    | ok token =>
      have kind := others token List.mem_cons_self
      have same : (⟨lines, size, pending, some token⟩ : Cursor).items =
          (⟨lines, size, .ok token :: pending, none⟩ : Cursor).items := by
        simp [Cursor.items, left, kind]
      refine .token same ⟨?_, whole, fun token listed => others token (List.mem_cons_of_mem _ listed), ?_⟩
      · rw [listed, same]
      · intro kept ahead last
        cases ahead
        exact absurd last kind

end Cursor

/-! ### How much a text gives -/

theorem length_readingsAt_le (offset : Nat) (pieces : List Piece) : (readingsAt offset pieces).length ≤ pieces.length := by
  induction pieces generalizing offset with
  | nil => exact Nat.le_refl 0
  | cons piece rest ih =>
    have behind := ih (offset + piece.size)
    have one : (piece.reading? offset).toList.length ≤ 1 := by cases piece.reading? offset <;> simp
    simp only [readingsAt, List.length_append, List.length_cons]
    omega

/-- A text has no more pieces than bytes. -/
theorem length_pieces_le (text : List Char) : (pieces text).length ≤ Utf8.size text := by
  fun_induction pieces text with
  | case1 => exact Nat.le_refl 0
  | case2 char text cut ih =>
    have some_byte : 0 < Utf8.size cut.1.text := size_pos (Piece.cut_text_ne_nil char text)
    have whole : Utf8.size (cut.1.text ++ cut.2) = Utf8.size (char :: text) :=
      congrArg Utf8.size (Piece.cut_append char text)
    rw [← whole, Utf8.size_append, List.length_cons]
    omega

/-- What a cursor has given and what it has still to give are together no more than its text has bytes. -/
theorem Cursor.Gave.length_le {text : List Char} {front : List Item} {cursor : Cursor} (gave : Gave text front cursor) :
    front.length + cursor.items.length ≤ cursor.size := by
  have all : (Token.items text).length ≤ Utf8.size text := by
    have each : (Token.items text).length = (readingsAt 0 (pieces text)).length := by simp [Token.items, readings]
    rw [each]
    exact Nat.le_trans (length_readingsAt_le 0 _) (length_pieces_le text)
  rwa [gave.items, List.length_append, ← gave.size] at all

end Token

end ActorSurface
