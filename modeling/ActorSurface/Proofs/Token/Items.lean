import ActorSurface.Proofs.Text.LineTable
import ActorSurface.Token.Stream

/-!
The items of a text with a running line. What the scan is told of a text follows from its pieces and the newlines in
them alone (`items_eq`), without byte offsets and the table of lines. Blanks at the front of a text only move the
line (`itemsFrom_blank`), so a text is read blank by blank and piece by piece (`textInduction`), and a text that
begins further down has the same items further down (`itemsFrom_add`).
-/

namespace ActorSurface

namespace Token

/-- The item of a piece that begins on a line, if it is not skipped. -/
def Piece.item? (piece : Piece) (line : Nat) : Option Item :=
  match piece.form with
  | .skipped _ => none
  | .token kind => some ⟨line, .ok kind⟩
  | .malformed fault => some ⟨line, .error fault⟩

/-- The items of pieces, the first of which begins on a line. -/
def itemsAt (line : Nat) : List Piece → List Item
  | [] => []
  | piece :: rest => (piece.item? line).toList ++ itemsAt (line + newlines piece.text) rest

/-- The items of a text that begins on a line. -/
def itemsFrom (line : Nat) (text : List Char) : List Item :=
  itemsAt line (pieces text)

@[simp]
theorem pieces_nil : pieces [] = [] := by
  rw [pieces]

theorem pieces_cons (char : Char) (text : List Char) :
    pieces (char :: text) = (Piece.cut char text).1 :: pieces (Piece.cut char text).2 := by
  rw [pieces]

@[simp]
theorem itemsFrom_nil (line : Nat) : itemsFrom line [] = [] := by
  rw [itemsFrom, pieces_nil, itemsAt]

/-- The items of a text are that of its first piece and those behind it. -/
theorem itemsFrom_cons (line : Nat) (char : Char) (text : List Char) :
    itemsFrom line (char :: text) = ((Piece.cut char text).1.item? line).toList ++
      itemsFrom (line + newlines (Piece.cut char text).1.text) (Piece.cut char text).2 := by
  rw [itemsFrom, pieces_cons, itemsAt, itemsFrom]

theorem item?_of_malformed {piece : Piece} {fault : LexicalFault} (malformed : piece.form = .malformed fault) (line : Nat) :
    piece.item? line = some ⟨line, .error fault⟩ := by
  rw [Piece.item?, malformed]

theorem itemsAt_append (line : Nat) (front back : List Piece) :
    itemsAt line (front ++ back) =
      itemsAt line front ++ itemsAt (line + newlines (front.flatMap Piece.text)) back := by
  induction front generalizing line with
  | nil => rfl
  | cons piece front ih =>
    rw [List.cons_append, itemsAt, itemsAt, ih, List.flatMap_cons, newlines_append, List.append_assoc, Nat.add_assoc]

/-- The last pieces of a text are the pieces of what they hold. -/
theorem pieces_of_append {text : List Char} {front back : List Piece} (split : pieces text = front ++ back) :
    back = pieces (back.flatMap Piece.text) := by
  induction front generalizing text with
  | nil =>
    have whole : back.flatMap Piece.text = text := by
      have lossless := flatMap_text_pieces text
      rwa [split] at lossless
    rw [whole, split]
    rfl
  | cons piece front ih =>
    cases text with
    | nil =>
      rw [pieces_nil] at split
      cases split
    | cons char text =>
      rw [pieces_cons] at split
      exact ih (List.cons.inj split).2

/-- A piece that stands behind some text has the item of its line. -/
theorem map_itemOf_reading? (piece : Piece) (front behind : List Char) :
    (piece.reading? (Utf8.size front)).map (itemOf (.ofText (front ++ behind))) =
      piece.item? (1 + newlines front) := by
  have line := LineTable.lineAt_size front behind
  obtain ⟨form, text⟩ := piece
  cases form with
  | skipped what => rfl
  | token kind => simp [Piece.reading?, Piece.item?, itemOf, line]
  | malformed fault => simp [Piece.reading?, Piece.item?, itemOf, line]

theorem map_itemOf_readingsAt (front behind : List Char) :
    (readingsAt (Utf8.size front) (pieces behind)).map (itemOf (.ofText (front ++ behind))) =
      itemsFrom (1 + newlines front) behind := by
  fun_induction pieces behind generalizing front with
  | case1 => simp [readingsAt]
  | case2 char text cut ih =>
    have whole : front ++ char :: text = front ++ cut.1.text ++ cut.2 := by
      rw [List.append_assoc, Piece.cut_append]
    have onward := ih (front ++ cut.1.text)
    rw [← whole, Utf8.size_append, newlines_append, ← Nat.add_assoc] at onward
    rw [itemsFrom_cons, readingsAt, List.map_append, ← onward, ← map_itemOf_reading? _ front (char :: text)]
    cases cut.1.reading? (Utf8.size front) <;> rfl

/-- The items of a text are those of its pieces, from line 1 on. -/
theorem items_eq (text : List Char) : items text = itemsFrom 1 text :=
  map_itemOf_readingsAt [] text

/-! ### Blanks -/

theorem cut_of_isBlank {char : Char} (blank : isBlank char = true) (text : List Char) :
    Piece.cut char text = Piece.cutBlanks char text := by
  rw [Piece.cut, if_pos blank]

theorem isBlank_newline : isBlank '\n' = true := by
  decide

/-- A blank at the front of a text is passed over. -/
theorem itemsFrom_blank {char : Char} (blank : isBlank char = true) (line : Nat) (text : List Char) :
    itemsFrom line (char :: text) = itemsFrom (line + newlines [char]) text := by
  have passed : ∀ line text, itemsFrom line (char :: text) =
      itemsFrom (line + newlines (char :: text.takeWhile isBlank)) (text.dropWhile isBlank) := by
    intro line text
    rw [itemsFrom_cons, cut_of_isBlank blank]
    rfl
  rw [passed]
  cases text with
  | nil => rfl
  | cons next text =>
    by_cases more : isBlank next = true
    · rw [List.takeWhile_cons_of_pos more, List.dropWhile_cons_of_pos more, itemsFrom_cons, cut_of_isBlank more]
      have lines := newlines_append [char] (next :: text.takeWhile isBlank)
      rw [List.singleton_append] at lines
      rw [lines, ← Nat.add_assoc]
      rfl
    · rw [List.takeWhile_cons_of_neg more, List.dropWhile_cons_of_neg more]

/-- A newline at the front of a text moves all items of it down by one line. -/
theorem itemsFrom_newline (line : Nat) (text : List Char) : itemsFrom line ('\n' :: text) = itemsFrom (line + 1) text :=
  itemsFrom_blank isBlank_newline line text

/-- Blanks at the front of a text are passed over. -/
theorem itemsFrom_blanks {blanks : List Char} (blank : ∀ char ∈ blanks, isBlank char = true) (line : Nat)
    (text : List Char) : itemsFrom line (blanks ++ text) = itemsFrom (line + newlines blanks) text := by
  induction blanks generalizing line with
  | nil => rfl
  | cons char blanks ih =>
    have lines := newlines_append [char] blanks
    rw [List.singleton_append] at lines
    rw [List.cons_append, itemsFrom_blank (blank char List.mem_cons_self),
      ih fun other listed => blank other (List.mem_cons_of_mem _ listed), lines, Nat.add_assoc]

/-- Reading a text: it is empty, or begins with a blank, or with a piece that is none of blanks. -/
@[elab_as_elim]
theorem textInduction {motive : List Char → Prop} (nil : motive [])
    (blank : ∀ char text, isBlank char = true → motive text → motive (char :: text))
    (visible : ∀ char text, isBlank char = false → motive (Piece.cut char text).2 → motive (char :: text))
    (text : List Char) : motive text := by
  induction length : text.length using Nat.strongRecOn generalizing text with
  | ind count ih =>
    subst length
    cases text with
    | nil => exact nil
    | cons char text =>
      have shorter := Piece.cut_rest_length_le char text
      by_cases isBlank : isBlank char = true
      · exact blank char text isBlank (ih _ (by simp) text rfl)
      · exact visible char text (by simpa using isBlank) (ih _ (by simp only [List.length_cons]; omega) _ rfl)

/-! ### Lines -/

theorem item?_add (piece : Piece) (line count : Nat) :
    piece.item? (line + count) = (piece.item? line).map (Located.shift count) := by
  unfold Piece.item?
  split <;> rfl

theorem itemsAt_add (line count : Nat) (pieces : List Piece) :
    itemsAt (line + count) pieces = (itemsAt line pieces).map (Located.shift count) := by
  induction pieces generalizing line with
  | nil => rfl
  | cons piece rest ih =>
    rw [itemsAt, itemsAt, List.map_append, ← ih, item?_add, Nat.add_right_comm]
    cases piece.item? line <;> rfl

/-- A text that begins further down has the same items further down. -/
theorem itemsFrom_add (line count : Nat) (text : List Char) :
    itemsFrom (line + count) text = (itemsFrom line text).map (Located.shift count) :=
  itemsAt_add line count (pieces text)

theorem le_line_of_mem_itemsAt {line : Nat} {pieces : List Piece} {item : Item} (listed : item ∈ itemsAt line pieces) :
    line ≤ item.line := by
  induction pieces generalizing line with
  | nil => cases listed
  | cons piece rest ih =>
    rw [itemsAt, List.mem_append] at listed
    rcases listed with here | later
    · obtain ⟨form, text⟩ := piece
      cases form <;> simp [Piece.item?] at here <;> subst here <;> exact Nat.le_refl _
    · have := ih later
      omega

/-- The items of a text stand below each other or on the same line. -/
theorem itemsAt_pairwise (line : Nat) (pieces : List Piece) :
    (itemsAt line pieces).Pairwise fun earlier later => earlier.line ≤ later.line := by
  induction pieces generalizing line with
  | nil => exact .nil
  | cons piece rest ih =>
    refine List.pairwise_append.mpr ⟨?_, ih _, fun earlier here later listed => ?_⟩
    · cases piece.item? line with
      | none => exact .nil
      | some item => exact List.pairwise_singleton _ item
    · have onLine : earlier.line = line := by
        obtain ⟨form, text⟩ := piece
        cases form <;> simp [Piece.item?] at here <;> subst here <;> rfl
      have below := le_line_of_mem_itemsAt listed
      omega

theorem items_pairwise (text : List Char) : (items text).Pairwise fun earlier later => earlier.line ≤ later.line := by
  rw [items_eq, itemsFrom]
  exact itemsAt_pairwise 1 (pieces text)

/-- No item of a text stands above it. -/
theorem le_line_of_mem {line : Nat} {text : List Char} {item : Item} (listed : item ∈ itemsFrom line text) :
    line ≤ item.line :=
  le_line_of_mem_itemsAt listed

end Token

end ActorSurface
