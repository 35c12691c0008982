import ActorSurface.Proofs.Token.LineEndings

/-!
The items of a text with a carriage return before every newline. Almost every piece stays what it is, on the same line.
Not so a string literal that holds a newline, and a lone quote before a newline: these tokens are spoiled
(`Piece.spoiled?`). Up to the first fault, the items of the longer text are those of the text itself with the spoiled tokens
as faults (`untilFault_itemsFrom_crlf`).
-/

namespace ActorSurface

namespace Token

variable {text body rest : List Char}

/-! ### Pieces -/

namespace Piece

/-- The fault that a token before some text becomes in the longer text: a string literal that holds a newline is not
    terminated there, and a lone quote before a newline, or before a backslash and a newline, has a body there. -/
def spoiled? (piece : Piece) (behind : List Char) : Option LexicalFault :=
  match piece.form with
  | .token .stringLiteral => if '\n' ∈ piece.text then some .unterminatedString else none
  | .token .quote => if ['\n'] <+: behind ∨ ['\\', '\n'] <+: behind then some .strayQuote else none
  | _ => none

/-- The piece with the form that it has in the longer text. -/
def spoil (piece : Piece) (behind : List Char) : Piece :=
  match piece.spoiled? behind with
  | some fault => { piece with form := .malformed fault }
  | none => piece

@[simp]
theorem spoil_text (piece : Piece) (behind : List Char) : (piece.spoil behind).text = piece.text := by
  unfold spoil
  split <;> rfl

/-- Only string literals and quotes are spoiled. -/
theorem spoil_of_other {piece : Piece} (string : piece.form ≠ .token .stringLiteral) (quote : piece.form ≠ .token .quote)
    (behind : List Char) : piece.spoil behind = piece := by
  have kept : piece.spoiled? behind = none := by
    unfold spoiled?
    split
    next same => exact absurd same string
    next same => exact absurd same quote
    next => rfl
  rw [spoil, kept]

/-- What the longer text begins with, where the text begins with a piece: a piece of the form that the piece has in
    the longer text, and if that is not malformed, one on as many lines, with the rest of the text behind it. -/
structure Lengthens (cut longer : Piece × List Char) : Prop where
  form : longer.1.form = (cut.1.spoil cut.2).form
  onward : (∀ fault, longer.1.form ≠ .malformed fault) →
    newlines longer.1.text = newlines cut.1.text ∧ Behind cut.2 longer.2

/-- A piece that is no string literal and no quote keeps its form. -/
theorem Lengthens.of_other {form : Form} {front longer more : List Char} (string : form ≠ .token .stringLiteral)
    (quote : form ≠ .token .quote) (lines : newlines longer = newlines front) (behind : Behind rest more) :
    Lengthens (⟨form, front⟩, rest) (⟨form, longer⟩, more) := by
  refine ⟨?_, fun _ => ⟨lines, behind⟩⟩
  rw [spoil_of_other string quote]

theorem Lengthens.of_malformed {cut longer : Piece × List Char} {fault : LexicalFault}
    (spoilt : (cut.1.spoil cut.2).form = .malformed fault) (malformed : longer.1.form = .malformed fault) :
    Lengthens cut longer :=
  ⟨malformed.trans spoilt.symm, fun free => absurd malformed (free fault)⟩

theorem ofWord_ne (word : String) : Kind.ofWord word ≠ .stringLiteral ∧ Kind.ofWord word ≠ .quote := by
  unfold Kind.ofWord Kind.keywords
  simp only [List.lookup_cons, List.lookup_nil]
  repeat' split
  all_goals simp

theorem ofCharacter_ne {char : Char} (notQuote : char ≠ '\'') :
    Kind.ofCharacter char ≠ .stringLiteral ∧ Kind.ofCharacter char ≠ .quote := by
  unfold Kind.ofCharacter
  split <;> simp at notQuote ⊢

/-- What goes on as long as a test holds that no end of a line passes stays as it is. -/
theorem cutRun_crlf {form : List Char → Form} {test : Char → Bool} (newline : test '\n' = false)
    (carriage : test '\r' = false) (string : ∀ word, form word ≠ .token .stringLiteral)
    (quote : ∀ word, form word ≠ .token .quote) (char : Char) (text : List Char) :
    Lengthens (cutRun form test char text) (cutRun form test char (crlf text)) := by
  unfold cutRun
  rw [takeWhile_crlf newline carriage, dropWhile_crlf newline carriage]
  exact .of_other (string _) (quote _) rfl (.inl rfl)

theorem cutWord_crlf (char : Char) (text : List Char) : Lengthens (cutWord char text) (cutWord char (crlf text)) := by
  rw [cutWord_eq, cutWord_eq]
  refine cutRun_crlf (by decide) (by decide) (fun word same => ?_) (fun word same => ?_) char text
  · exact (ofWord_ne _).1 (Form.token.inj same)
  · exact (ofWord_ne _).2 (Form.token.inj same)

theorem cutNumber_crlf (char : Char) (text : List Char) :
    Lengthens (cutNumber char text) (cutNumber char (crlf text)) := by
  rw [cutNumber_eq, cutNumber_eq]
  exact cutRun_crlf (by decide) (by decide) (by simp) (by simp) char text

theorem cutDirective_crlf (plain : '\r' ∉ text) : Lengthens (cutDirective text) (cutDirective (crlf text)) := by
  obtain ⟨lines, behind⟩ := directiveBody_crlf plain
  refine .of_other (by simp) (by simp) ?_ behind
  rw [newlines_cons_of_ne (by decide), newlines_cons_of_ne (by decide), lines]

theorem cutString_crlf (text : List Char) : Lengthens (cutString text) (cutString (crlf text)) := by
  cases split : stringBody text with
  | mk body rest =>
    by_cases closed : ∃ behind, rest = '"' :: behind
    · obtain ⟨behind, rfl⟩ := closed
      rw [cutString_of_closed split]
      by_cases inLine : '\n' ∈ body
      · have unclosed := stringBody_crlf_of_unclosed split (.inr inLine)
        rw [cutString_of_unclosed rfl unclosed]
        exact .of_malformed (by simp [spoil, spoiled?, inLine]) rfl
      · rw [cutString_of_closed (stringBody_crlf_of_closed split inLine)]
        exact ⟨by simp [spoil, spoiled?, inLine], fun _ => ⟨rfl, .inl rfl⟩⟩
    · have notClosed : ∀ behind, rest ≠ '"' :: behind := fun behind same => closed ⟨behind, same⟩
      have unclosed := stringBody_crlf_of_unclosed split (.inl notClosed)
      rw [cutString_of_unclosed split notClosed, cutString_of_unclosed rfl unclosed]
      exact .of_malformed rfl rfl

/-- A quote that is lone before the end of the text, or before a backslash there, keeps its form. -/
theorem cutQuote_crlf_of_last (split : characterBody text = (body, rest)) (unclosed : ∀ behind, rest ≠ '\'' :: behind)
    (inLine : '\n' ∉ rest) (last : characterBody rest = ([], rest)) :
    Lengthens (cutQuote text) (cutQuote (crlf text)) := by
  have further := characterBody_crlf split
  rw [crlf_of_newline_not_mem inLine, last, List.append_nil] at further
  rw [cutQuote_of_unclosed split unclosed, cutQuote_of_unclosed further unclosed]
  refine ⟨?_, fun _ => ⟨rfl, .inl (crlf_of_newline_not_mem inLine).symm⟩⟩
  have notSpoiled : ¬ (['\n'] <+: rest ∨ ['\\', '\n'] <+: rest) := by
    rintro (newline | escaped)
    · exact inLine (newline.mem (by simp))
    · exact inLine (escaped.mem (by simp))
  by_cases empty : body = []
  · simp [spoil, spoiled?, empty, notSpoiled]
  · simp [spoil, spoiled?, empty]

/-- A quote before a newline, or before a backslash and a newline, has a body in the longer text. -/
theorem cutQuote_crlf_of_newline {char : Char} {tail more : List Char} (split : characterBody text = (body, rest))
    (unclosed : ∀ behind, rest ≠ '\'' :: behind) (newline : ['\n'] <+: rest ∨ ['\\', '\n'] <+: rest)
    (further : characterBody (crlf rest) = (char :: tail, '\n' :: more)) :
    Lengthens (cutQuote text) (cutQuote (crlf text)) := by
  have longer := characterBody_crlf split
  rw [further] at longer
  have spoilt : ((Piece.mk (if body = [] then .token .quote else .malformed .strayQuote) ('\'' :: body)).spoil rest).form =
      .malformed .strayQuote := by
    by_cases empty : body = []
    · simp [spoil, spoiled?, empty, newline]
    · simp [spoil, spoiled?, empty]
  rw [cutQuote_of_unclosed split unclosed, cutQuote_of_unclosed longer (by simp)]
  exact .of_malformed spoilt (by simp)

theorem cutQuote_crlf (text : List Char) : Lengthens (cutQuote text) (cutQuote (crlf text)) := by
  cases split : characterBody text with
  | mk body rest =>
    rcases characterBody_rest split with rfl | rfl | ⟨behind, rfl⟩ | ⟨behind, rfl⟩ | ⟨behind, rfl⟩
    · exact cutQuote_crlf_of_last split (by simp) (by simp) (by simp [characterBody])
    · exact cutQuote_crlf_of_last split (by simp) (by simp) (by simp [characterBody])
    · have further := characterBody_crlf split
      rw [crlf_cons_of_ne (by decide)] at further
      have closed : characterBody (crlf text) = (body, '\'' :: crlf behind) := by
        simpa [characterBody] using further
      rw [cutQuote_of_closed split, cutQuote_of_closed closed]
      exact .of_other (by simp) (by simp) rfl (.inl rfl)
    · have further : characterBody (crlf ('\n' :: behind)) = (['\r'], '\n' :: crlf behind) := by
        simp [characterBody]
      exact cutQuote_crlf_of_newline split (by simp) (.inl (by simp)) further
    · have further : characterBody (crlf ('\\' :: '\n' :: behind)) = (['\\', '\r'], '\n' :: crlf behind) := by
        rw [crlf_cons_of_ne (by decide), crlf_newline]
        simp [characterBody]
      exact cutQuote_crlf_of_newline split (by simp) (.inr (by simp)) further

theorem cutSlash_crlf (text : List Char) : Lengthens (cutSlash text) (cutSlash (crlf text)) := by
  by_cases line : ∃ behind, text = '/' :: behind
  · obtain ⟨behind, rfl⟩ := line
    rw [crlf_cons_of_ne (by decide), cutSlash, cutSlash]
    refine .of_other (by simp) (by simp) ?_ (lineComment_crlf behind)
    have outside := newlines_takeWhile behind
    have inside := newlines_takeWhile (crlf behind)
    simp only [newlines_cons_of_ne (show '/' ≠ '\n' by decide), outside, inside]
  · by_cases block : ∃ behind, text = '*' :: behind
    · obtain ⟨behind, rfl⟩ := block
      rw [crlf_cons_of_ne (by decide), cutSlash, cutSlash, commentBody_crlf]
      cases commentBody behind with
      | none => exact .of_malformed rfl rfl
      | some found =>
        refine .of_other (by simp) (by simp) ?_ (.inl rfl)
        simp [newlines_cons_of_ne]
    · have notLine : ∀ behind, text ≠ '/' :: behind := fun behind same => line ⟨behind, same⟩
      have notBlock : ∀ behind, text ≠ '*' :: behind := fun behind same => block ⟨behind, same⟩
      rw [cutSlash_of_other notLine notBlock,
        cutSlash_of_other (crlf_ne (by decide) notLine) (crlf_ne (by decide) notBlock)]
      exact .of_other (by simp) (by simp) rfl (.inl rfl)

/-- The first piece of a text that begins with no blank, in the longer text. -/
theorem cut_crlf {char : Char} (visible : isBlank char = false) (plain : '\r' ∉ text) :
    Lengthens (cut char text) (cut char (crlf text)) := by
  have notBlank : ¬ isBlank char = true := by simp [visible]
  unfold cut
  rw [if_neg notBlank, if_neg notBlank]
  split_ifs with word digit sign doubleQuote singleQuote slash
  · exact cutWord_crlf char text
  · exact cutNumber_crlf char text
  · exact cutDirective_crlf plain
  · exact cutString_crlf text
  · exact cutQuote_crlf text
  · exact cutSlash_crlf text
  · have other := ofCharacter_ne singleQuote
    exact .of_other (fun same => other.1 (Form.token.inj same)) (fun same => other.2 (Form.token.inj same)) rfl (.inl rfl)

end Piece

/-! ### Items -/

/-- The items up to the first fault, and that fault. -/
def untilFault : List Item → List Item
  | [] => []
  | item :: rest =>
    match item.value with
    | .ok _ => item :: untilFault rest
    | .error _ => [item]

theorem untilFault_append (front : List Item) {items others : List Item} (same : untilFault items = untilFault others) :
    untilFault (front ++ items) = untilFault (front ++ others) := by
  induction front with
  | nil => exact same
  | cons item front ih =>
    obtain ⟨line, value⟩ := item
    cases value with
    | error fault => rfl
    | ok kind => simp [untilFault, ih]

/-- The pieces of a text with the forms that they have in the longer text. -/
def spoilt : List Piece → List Piece
  | [] => []
  | piece :: rest => piece.spoil (rest.flatMap Piece.text) :: spoilt rest

/-- Blanks at the front of the text are blanks in the longer text, on as many lines. -/
theorem itemsFrom_crlf_blanks {char : Char} (blank : isBlank char = true) (text : List Char) (line : Nat) :
    itemsFrom line (crlf (char :: text)) =
      itemsFrom (line + newlines (Piece.cutBlanks char text).1.text) (crlf (Piece.cutBlanks char text).2) := by
  have blanks : ∀ other ∈ (Piece.cutBlanks char text).1.text, isBlank other = true := by
    intro other listed
    rcases List.mem_cons.mp listed with rfl | later
    · exact blank
    · exact List.mem_takeWhile_imp later
  have whole : (Piece.cutBlanks char text).1.text ++ (Piece.cutBlanks char text).2 = char :: text := by
    rw [← cut_of_isBlank blank, Piece.cut_append]
  rw [← whole, crlf_append, itemsFrom_blanks (isBlank_of_mem_crlf blanks), newlines_crlf]

/-- The first items that a piece and what stands behind it make in the longer text: a fault, or the item of the piece
    and those behind it. -/
theorem untilFault_of_lengthens {cut longer : Piece × List Char} (lengthens : Piece.Lengthens cut longer) {line : Nat}
    {items : List Item}
    (onward : untilFault (itemsFrom (line + newlines cut.1.text) (crlf cut.2)) = untilFault items) :
    untilFault ((longer.1.item? line).toList ++ itemsFrom (line + newlines longer.1.text) longer.2) =
      untilFault (((cut.1.spoil cut.2).item? line).toList ++ items) := by
  by_cases malformed : ∃ fault, longer.1.form = .malformed fault
  · obtain ⟨fault, malformed⟩ := malformed
    rw [item?_of_malformed malformed, item?_of_malformed (lengthens.form ▸ malformed)]
    rfl
  · obtain ⟨lines, behind⟩ := lengthens.onward fun fault same => malformed ⟨fault, same⟩
    have item : longer.1.item? line = (cut.1.spoil cut.2).item? line := by
      rw [Piece.item?, Piece.item?, lengthens.form]
    rw [item, lines, behind.itemsFrom]
    exact untilFault_append _ onward

/-- Up to the first fault the items of the longer text are those of the text with its spoiled tokens as faults. -/
theorem untilFault_itemsFrom_crlf {text : List Char} (plain : '\r' ∉ text) (line : Nat) :
    untilFault (itemsFrom line (crlf text)) = untilFault (itemsAt line (spoilt (pieces text))) := by
  fun_induction pieces text generalizing line with
  | case1 => simp [spoilt, itemsAt]
  | case2 char text cut ih =>
    have whole : cut.1.text ++ cut.2 = char :: text := Piece.cut_append char text
    have onward := ih fun listed => plain (whole ▸ List.mem_append_right _ listed)
    rw [spoilt, itemsAt, flatMap_text_pieces, Piece.spoil_text]
    by_cases blank : isBlank char = true
    · have cuts : cut = Piece.cutBlanks char text := cut_of_isBlank blank text
      have kept : cut.1.spoil cut.2 = cut.1 := by
        rw [cuts]
        exact Piece.spoil_of_other (by simp [Piece.cutBlanks]) (by simp [Piece.cutBlanks]) _
      have skipped : cut.1.item? line = none := by
        rw [cuts]
        rfl
      rw [kept, skipped, itemsFrom_crlf_blanks blank, ← cuts]
      exact onward _
    · have visible : isBlank char = false := by simpa using blank
      have inLine : char ≠ '\n' := by
        rintro rfl
        exact blank isBlank_newline
      have lengthens := Piece.cut_crlf visible fun listed => plain (List.mem_cons_of_mem _ listed)
      rw [crlf_cons_of_ne inLine, itemsFrom_cons]
      exact untilFault_of_lengthens lengthens (onward _)

/-! ### The first spoiled token -/

/-- The first spoiled token of some pieces: the pieces before it, and the fault that it becomes. -/
def firstSpoiled : List Piece → Option (List Piece × LexicalFault)
  | [] => none
  | piece :: rest =>
    match piece.spoiled? (rest.flatMap Piece.text) with
    | some fault => some ([], fault)
    | none => (firstSpoiled rest).map fun found => (piece :: found.1, found.2)

/-- Without a spoiled token all pieces stay as they are. -/
theorem spoilt_of_none {pieces : List Piece} (unspoiled : firstSpoiled pieces = none) : spoilt pieces = pieces := by
  induction pieces with
  | nil => rfl
  | cons piece rest ih =>
    rw [firstSpoiled] at unspoiled
    split at unspoiled
    next => cases unspoiled
    next kept => rw [spoilt, Piece.spoil, kept, ih (Option.map_eq_none_iff.mp unspoiled)]

/-- The first spoiled token, with what stands before it and behind it. -/
theorem exists_of_firstSpoiled {pieces front : List Piece} {fault : LexicalFault}
    (found : firstSpoiled pieces = some (front, fault)) :
    ∃ piece back rest, pieces = front ++ piece :: back ∧ piece.spoiled? (back.flatMap Piece.text) = some fault ∧
      spoilt pieces = front ++ { piece with form := .malformed fault } :: rest := by
  induction pieces generalizing front with
  | nil => cases found
  | cons piece rest ih =>
    rw [firstSpoiled] at found
    split at found
    next other spoiled =>
      obtain ⟨rfl, rfl⟩ := Prod.mk.inj (Option.some.inj found)
      refine ⟨piece, rest, spoilt rest, rfl, spoiled, ?_⟩
      rw [spoilt, Piece.spoil, spoiled]
      rfl
    next kept =>
      obtain ⟨⟨inner, other⟩, later, same⟩ := Option.map_eq_some_iff.mp found
      obtain ⟨rfl, rfl⟩ := Prod.mk.inj same
      obtain ⟨token, back, others, rfl, spoiled, split⟩ := ih later
      refine ⟨token, back, others, rfl, spoiled, ?_⟩
      rw [spoilt, Piece.spoil, kept, split]
      rfl

/-- A spoiled token is a token, and no fault behind it stands on its line. -/
theorem Piece.of_spoiled {piece : Piece} {behind : List Char} {fault : LexicalFault}
    (spoiled : piece.spoiled? behind = some fault) (line : Nat) :
    (∃ kind, piece.item? line = some ⟨line, .ok kind⟩) ∧
      ∀ other, ⟨line, .error other⟩ ∉ itemsFrom (line + newlines piece.text) behind := by
  obtain ⟨form, text⟩ := piece
  unfold spoiled? at spoiled
  split at spoiled
  next string =>
    obtain rfl : form = .token .stringLiteral := string
    split_ifs at spoiled with newline
    refine ⟨⟨.stringLiteral, rfl⟩, fun other listed => ?_⟩
    have lower := le_line_of_mem listed
    have some_newline : 0 < newlines text := List.count_pos_iff.mpr newline
    simp only at lower
    omega
  next quote =>
    obtain rfl : form = .token .quote := quote
    split_ifs at spoiled with newline
    refine ⟨⟨.quote, rfl⟩, fun other listed => ?_⟩
    -- A backslash before the newline is punctuation, and all else is on later lines.
    have later : ∃ rest, ⟨line, .error other⟩ ∈ itemsFrom (line + newlines text) ('\n' :: rest) := by
      rcases newline with ⟨rest, rfl⟩ | ⟨rest, rfl⟩
      · exact ⟨rest, listed⟩
      · have cut : cut '\\' ('\n' :: rest) = (⟨.token .punctuation, ['\\']⟩, '\n' :: rest) := rfl
        rw [List.cons_append, List.singleton_append, itemsFrom_cons, cut] at listed
        rcases List.mem_append.mp listed with here | behind
        · simp [item?] at here
        · exact ⟨rest, behind⟩
    obtain ⟨rest, later⟩ := later
    rw [itemsFrom_newline] at later
    have lower := le_line_of_mem later
    simp only at lower
    omega
  next => cases spoiled

end Token

end ActorSurface
