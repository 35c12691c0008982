import ActorSurface.Proofs.Token.Items

/-!
Two texts with a newline between them. No piece of the first text takes the newline behind it, but for blanks, for what
is unterminated, and for a directive that continues over it (`cut_append_newline`). So the items of both texts are those of
the first and then those of the second, further down by the lines of the first (`itemsFrom_append_newline`); and a
newline at the end of a text adds nothing, whatever the text ends in.
-/

namespace ActorSurface

namespace Token

/-- A text that ends in such a way that a directive in it may continue over a newline: in a backslash, or in a
    backslash and a carriage return. -/
def EndsContinued (text : List Char) : Prop :=
  ['\\'] <:+ text ∨ ['\\', '\r'] <:+ text

instance (text : List Char) : Decidable (EndsContinued text) :=
  inferInstanceAs (Decidable (_ ∨ _))

theorem EndsContinued.of_suffix {behind text : List Char} (ends : EndsContinued behind) (suffix : behind <:+ text) :
    EndsContinued text :=
  ends.imp (fun backslash => backslash.trans suffix) fun both => both.trans suffix

theorem EndsContinued.cons {text : List Char} (ends : EndsContinued text) (char : Char) : EndsContinued (char :: text) :=
  ends.of_suffix (List.suffix_cons char text)

/-! ### Bodies before more text -/

variable {body rest more : List Char}

theorem takeWhile_append_of_stop {test : Char → Bool} {stop : Char} (stops : test stop = false) (text more : List Char) :
    (text ++ stop :: more).takeWhile test = text.takeWhile test := by
  induction text with
  | nil => simp [stops]
  | cons char text ih =>
    by_cases goes : test char = true
    · simp [goes, ih]
    · simp [goes]

theorem dropWhile_append_of_stop {test : Char → Bool} {stop : Char} (stops : test stop = false) (text more : List Char) :
    (text ++ stop :: more).dropWhile test = text.dropWhile test ++ stop :: more := by
  induction text with
  | nil => simp [stops]
  | cons char text ih =>
    by_cases goes : test char = true
    · simp [goes, ih]
    · simp [goes]

/-- A closed string has the same body with anything else behind it. -/
theorem stringBody_of_closed {text : List Char} (closed : stringBody text = (body, '"' :: rest))
    (other : List Char) : stringBody (body ++ '"' :: other) = (body, '"' :: other) := by
  fun_induction stringBody text generalizing body with
  | case1 => cases closed
  | case2 escaped text inner behind split ih =>
    obtain ⟨rfl, rfl⟩ := Prod.mk.inj closed
    simp [stringBody, ih split]
  | case3 char text notEscape ends =>
    obtain ⟨rfl, same⟩ := Prod.mk.inj closed
    simp [stringBody]
  | case4 char text notEscape goes inner behind split ih =>
    obtain ⟨rfl, rfl⟩ := Prod.mk.inj closed
    have plain : char ≠ '\\' := by
      rintro rfl
      simp at goes
    rw [List.cons_append, stringBody, if_neg goes, ih split]
    simp [plain]

/-- A string that is closed is closed there with more text behind it too. -/
theorem stringBody_append_of_closed {text : List Char} (closed : stringBody text = (body, '"' :: rest))
    (more : List Char) : stringBody (text ++ more) = (body, '"' :: (rest ++ more)) := by
  have whole := stringBody_append text
  rw [closed] at whole
  rw [← whole, List.append_assoc, List.cons_append]
  exact stringBody_of_closed closed (rest ++ more)

/-- The body of a character literal ends before a newline behind the text, if not before. -/
theorem characterBody_append_newline {text : List Char} (split : characterBody text = (body, rest))
    (more : List Char) : characterBody (text ++ '\n' :: more) = (body, rest ++ '\n' :: more) := by
  fun_induction characterBody text generalizing body rest with
  | case1 =>
    obtain ⟨rfl, rfl⟩ := Prod.mk.inj split
    simp [characterBody]
  | case2 text =>
    obtain ⟨rfl, rfl⟩ := Prod.mk.inj split
    simp [characterBody]
  | case3 escaped text inLine inner behind inside ih =>
    obtain ⟨rfl, rfl⟩ := Prod.mk.inj split
    simp [characterBody, inLine, ih inside]
  | case4 char text notEscape ends =>
    obtain ⟨rfl, rfl⟩ := Prod.mk.inj split
    by_cases backslash : char = '\\'
    · subst backslash
      cases text with
      | nil => simp [characterBody]
      | cons escaped text => exact absurd rfl (notEscape escaped text rfl)
    · rw [List.cons_append, characterBody, if_pos ends]
      exact fun _ _ same => absurd same backslash
  | case5 char text notEscape goes inner behind inside ih =>
    obtain ⟨rfl, rfl⟩ := Prod.mk.inj split
    simp only [Bool.or_eq_true, decide_eq_true_eq, not_or] at goes
    simp [characterBody, goes, ih inside]

/-- A block comment that is closed is closed there with more text behind it too. -/
theorem commentBody_append_of_closed {text : List Char} (closed : commentBody text = some (body, rest))
    (more : List Char) : commentBody (text ++ more) = some (body, rest ++ more) := by
  fun_induction commentBody text generalizing body with
  | case1 => cases closed
  | case2 text =>
    obtain ⟨rfl, rfl⟩ := Prod.mk.inj (Option.some.inj closed)
    simp [commentBody]
  | case3 char text unclosed ih =>
    obtain ⟨⟨inner, behind⟩, found, same⟩ := Option.map_eq_some_iff.mp closed
    obtain ⟨rfl, rfl⟩ := Prod.mk.inj same
    cases text with
    | nil => cases found
    | cons next text =>
      have stillUnclosed : ∀ behind, char = '*' → next :: text ++ more = '/' :: behind → False := by
        rintro _ star slash
        exact unclosed text star (by rw [(List.cons.inj slash).1])
      rw [List.cons_append, commentBody, ih found]
      · rfl
      · exact stillUnclosed

/-- A directive ends before a newline behind the text, if not before, unless the text lets it continue. -/
theorem directiveBody_append_newline {text : List Char} (split : directiveBody text = (body, rest))
    (ends : rest = [] → ¬ EndsContinued text) (more : List Char) :
    directiveBody (text ++ '\n' :: more) = (body, rest ++ '\n' :: more) := by
  fun_induction directiveBody text generalizing body rest with
  | case1 =>
    obtain ⟨rfl, rfl⟩ := Prod.mk.inj split
    simp [directiveBody]
  | case2 text inner behind inside ih =>
    obtain ⟨rfl, rfl⟩ := Prod.mk.inj split
    have onward := ih inside fun last continued => ends last (((continued.cons '\n').cons '\r').cons '\\')
    simp [directiveBody, onward]
  | case3 escaped text notContinued inner behind inside ih =>
    obtain ⟨rfl, rfl⟩ := Prod.mk.inj split
    have onward := ih inside fun last continued => ends last ((continued.cons escaped).cons '\\')
    -- With the newline behind it a carriage return at the end of the text would continue the line.
    have stillNotContinued : ∀ behind, escaped = '\r' → text ++ '\n' :: more = '\n' :: behind → False := by
      rintro _ rfl newline
      cases text with
      | nil =>
        obtain ⟨rfl, rfl⟩ := Prod.mk.inj inside
        exact ends rfl (.inr (List.suffix_refl _))
      | cons next text => exact notContinued text rfl (by rw [(List.cons.inj newline).1])
    rw [List.cons_append, List.cons_append, directiveBody, onward]
    exact stillNotContinued
  | case4 text =>
    obtain ⟨rfl, rfl⟩ := Prod.mk.inj split
    simp [directiveBody]
  | case5 char text notContinued notEscape inLine inner behind inside ih =>
    obtain ⟨rfl, rfl⟩ := Prod.mk.inj split
    have onward := ih inside fun last continued => ends last (continued.cons char)
    have plain : char ≠ '\\' := by
      rintro rfl
      cases text with
      | nil =>
        obtain ⟨rfl, rfl⟩ := Prod.mk.inj inside
        exact ends rfl (.inl (List.suffix_refl _))
      | cons next text => exact notEscape next text rfl rfl
    simp [directiveBody, plain, inLine, onward]

/-- A directive that takes a whole text takes a newline behind it too, or ends before it. -/
theorem directiveBody_append_last_newline {text : List Char} (whole : (directiveBody text).2 = []) :
    (directiveBody (text ++ ['\n'])).2 = [] ∨ (directiveBody (text ++ ['\n'])).2 = ['\n'] := by
  fun_induction directiveBody text with
  | case1 => exact .inr (by simp [directiveBody])
  | case2 text inner behind inside ih =>
    rw [inside] at ih
    simpa [directiveBody] using ih whole
  | case3 escaped text notContinued inner behind inside ih =>
    rw [inside] at ih
    cases text with
    | nil =>
      by_cases carriage : escaped = '\r'
      · subst carriage
        exact .inl (by simp [directiveBody])
      · exact .inr (by simp [directiveBody, carriage])
    | cons next text =>
      have notContinued : ∀ behind, escaped = '\r' → next :: text ++ ['\n'] = '\n' :: behind → False := by
        rintro _ carriage newline
        exact notContinued text carriage (by rw [(List.cons.inj newline).1])
      rw [List.cons_append, List.cons_append, directiveBody]
      · exact ih whole
      · exact notContinued
  | case4 text => cases whole
  | case5 char text notContinued notEscape inLine inner behind inside ih =>
    rw [inside] at ih
    cases text with
    | nil =>
      by_cases backslash : char = '\\'
      · subst backslash
        exact .inl (by simp [directiveBody])
      · exact .inr (by simp [directiveBody, backslash, inLine])
    | cons next text =>
      have plain : char ≠ '\\' := by
        rintro rfl
        exact notEscape next text rfl rfl
      simpa [directiveBody, plain, inLine] using ih whole

/-! ### Pieces before a newline -/

namespace Piece

variable {piece : Piece} {text : List Char}

/-- The piece that goes on as long as a test holds, with the form that its text has, and the text behind it. -/
def cutRun (form : List Char → Form) (test : Char → Bool) (char : Char) (text : List Char) : Piece × List Char :=
  let word := char :: text.takeWhile test
  (⟨form word, word⟩, text.dropWhile test)

theorem cutWord_eq (char : Char) (text : List Char) :
    cutWord char text = cutRun (fun word => .token (.ofWord (String.ofList word))) isWordPart char text := rfl

theorem cutNumber_eq (char : Char) (text : List Char) :
    cutNumber char text = cutRun (fun _ => .token .number) isNumberPart char text := rfl

theorem cutRun_append_newline {form : List Char → Form} {test : Char → Bool} {char : Char} (stops : test '\n' = false)
    (cut : cutRun form test char text = (piece, rest)) (more : List Char) :
    cutRun form test char (text ++ '\n' :: more) = (piece, rest ++ '\n' :: more) := by
  obtain ⟨rfl, rfl⟩ := Prod.mk.inj cut
  rw [cutRun, takeWhile_append_of_stop stops, dropWhile_append_of_stop stops]

theorem cutString_of_closed (closed : stringBody text = (body, '"' :: rest)) :
    cutString text = (⟨.token .stringLiteral, '"' :: (body ++ ['"'])⟩, rest) := by
  rw [cutString, closed]
  rfl

theorem cutString_of_unclosed (split : stringBody text = (body, rest)) (unclosed : ∀ behind, rest ≠ '"' :: behind) :
    cutString text = (⟨.malformed .unterminatedString, '"' :: body⟩, rest) := by
  rw [cutString, split]
  split
  next _ behind same => exact absurd (Prod.mk.inj same).2 (unclosed behind)
  next => rename_i same; obtain ⟨rfl, rfl⟩ := Prod.mk.inj same; rfl

theorem cutQuote_of_closed (closed : characterBody text = (body, '\'' :: rest)) :
    cutQuote text = (⟨.token .characterLiteral, '\'' :: (body ++ ['\''])⟩, rest) := by
  rw [cutQuote, closed]
  rfl

/-- A quote that closes no literal is a token where its body is empty, and else malformed. -/
theorem cutQuote_of_unclosed (split : characterBody text = (body, rest)) (unclosed : ∀ behind, rest ≠ '\'' :: behind) :
    cutQuote text =
      (⟨if body = [] then .token .quote else .malformed .strayQuote, '\'' :: body⟩, rest) := by
  rw [cutQuote, split]
  split
  next _ behind same => exact absurd (Prod.mk.inj same).2 (unclosed behind)
  next behind _ same =>
    obtain ⟨rfl, rfl⟩ := Prod.mk.inj same
    rfl
  next nonempty same =>
    obtain ⟨rfl, rfl⟩ := Prod.mk.inj same
    rw [if_neg nonempty]

theorem cutSlash_of_other (notLine : ∀ behind, text ≠ '/' :: behind) (notBlock : ∀ behind, text ≠ '*' :: behind) :
    cutSlash text = (⟨.token .slash, ['/']⟩, text) := by
  rw [cutSlash]
  · exact notLine
  · exact notBlock

/-- A newline behind a text begins it only where the text is empty, so it makes nothing begin otherwise. -/
theorem append_newline_ne {char : Char} (inLine : char ≠ '\n') (other : ∀ behind, rest ≠ char :: behind)
    (more behind : List Char) : rest ++ '\n' :: more ≠ char :: behind := by
  cases rest with
  | nil =>
    intro same
    exact inLine (List.cons.inj same).1.symm
  | cons first rest =>
    intro same
    exact other rest (by rw [(List.cons.inj same).1])

theorem cutString_append_newline (cut : cutString text = (piece, rest))
    (terminated : piece.form ≠ .malformed .unterminatedString) (more : List Char) :
    cutString (text ++ '\n' :: more) = (piece, rest ++ '\n' :: more) := by
  unfold cutString at cut
  split at cut
  next body behind closed =>
    obtain ⟨rfl, rfl⟩ := Prod.mk.inj cut
    exact cutString_of_closed (stringBody_append_of_closed closed _)
  next body behind unclosed split =>
    obtain ⟨rfl, rfl⟩ := Prod.mk.inj cut
    exact absurd rfl terminated

theorem cutQuote_append_newline (cut : cutQuote text = (piece, rest)) (more : List Char) :
    cutQuote (text ++ '\n' :: more) = (piece, rest ++ '\n' :: more) := by
  cases split : characterBody text with
  | mk body behind =>
    have further := characterBody_append_newline split more
    by_cases closed : ∃ last, behind = '\'' :: last
    · obtain ⟨last, rfl⟩ := closed
      rw [cutQuote_of_closed split] at cut
      obtain ⟨rfl, rfl⟩ := Prod.mk.inj cut
      exact cutQuote_of_closed further
    · have unclosed : ∀ last, behind ≠ '\'' :: last := fun last same => closed ⟨last, same⟩
      rw [cutQuote_of_unclosed split unclosed] at cut
      obtain ⟨rfl, rfl⟩ := Prod.mk.inj cut
      exact cutQuote_of_unclosed further fun last => append_newline_ne (by decide) unclosed more last

theorem cutSlash_append_newline (cut : cutSlash text = (piece, rest))
    (terminated : piece.form ≠ .malformed .unterminatedComment) (more : List Char) :
    cutSlash (text ++ '\n' :: more) = (piece, rest ++ '\n' :: more) := by
  unfold cutSlash at cut
  split at cut
  next text =>
    obtain ⟨rfl, rfl⟩ := Prod.mk.inj cut
    simp only [List.cons_append, cutSlash]
    rw [takeWhile_append_of_stop (by decide), dropWhile_append_of_stop (by decide)]
  next text =>
    split at cut
    next body behind closed =>
      obtain ⟨rfl, rfl⟩ := Prod.mk.inj cut
      simp only [List.cons_append, cutSlash, commentBody_append_of_closed closed]
    next unclosed =>
      obtain ⟨rfl, rfl⟩ := Prod.mk.inj cut
      exact absurd rfl terminated
  next text notLine notBlock =>
    obtain ⟨rfl, rfl⟩ := Prod.mk.inj cut
    have stillNotLine := append_newline_ne (by decide) notLine more
    have stillNotBlock := append_newline_ne (by decide) notBlock more
    exact cutSlash_of_other stillNotLine stillNotBlock

/-- No piece but one of blanks takes the newline behind a text, unless it is unterminated or a directive that the
    end of the text lets continue. -/
theorem cut_append_newline {char : Char} (visible : isBlank char = false)
    (string : (cut char text).1.form ≠ .malformed .unterminatedString)
    (comment : (cut char text).1.form ≠ .malformed .unterminatedComment)
    (ends : char = '#' → (cut char text).2 = [] → ¬ EndsContinued text) (more : List Char) :
    cut char (text ++ '\n' :: more) = ((cut char text).1, (cut char text).2 ++ '\n' :: more) := by
  generalize cut : Piece.cut char text = result at string comment ends ⊢
  obtain ⟨piece, rest⟩ := result
  unfold Piece.cut at cut ⊢
  rw [if_neg (by simp [visible])] at cut ⊢
  split_ifs at cut ⊢ with word digit sign doubleQuote singleQuote slash
  · rw [cutWord_eq] at cut ⊢
    exact cutRun_append_newline (by decide) cut more
  · rw [cutNumber_eq] at cut ⊢
    exact cutRun_append_newline (by decide) cut more
  · obtain ⟨rfl, rfl⟩ := Prod.mk.inj cut
    have further := directiveBody_append_newline rfl (ends sign) more
    simp only [cutDirective, further]
  · exact cutString_append_newline cut string more
  · exact cutQuote_append_newline cut more
  · exact cutSlash_append_newline cut comment more
  · obtain ⟨rfl, rfl⟩ := Prod.mk.inj cut
    rfl

end Piece

/-! ### Items -/

/-- No item is a lexical fault. -/
def Faultless (items : List Item) : Prop :=
  ∀ item ∈ items, ∃ kind, item.value = .ok kind

theorem Faultless.not_malformed {line : Nat} {piece : Piece} {items : List Item}
    (faultless : Faultless ((piece.item? line).toList ++ items)) (fault : LexicalFault) :
    piece.form ≠ .malformed fault := by
  intro malformed
  have listed : ⟨line, .error fault⟩ ∈ (piece.item? line).toList ++ items := by
    simp [Piece.item?, malformed]
  obtain ⟨kind, same⟩ := faultless _ listed
  cases same

theorem Faultless.behind {front items : List Item} (faultless : Faultless (front ++ items)) : Faultless items :=
  fun item listed => faultless item (List.mem_append_right front listed)

theorem Faultless.shift {items : List Item} (faultless : Faultless items) (count : Nat) :
    Faultless (items.map (Located.shift count)) := by
  intro item listed
  obtain ⟨higher, inside, rfl⟩ := List.mem_map.mp listed
  exact faultless higher inside

theorem cut_slash (text : List Char) : Piece.cut '/' text = Piece.cutSlash text := by
  rfl

theorem cut_sign (text : List Char) : Piece.cut '#' text = Piece.cutDirective text := by
  rfl

/-- The items of a directive that takes a whole text. -/
theorem itemsFrom_directive {text : List Char} (line : Nat) (whole : (directiveBody text).2 = []) :
    itemsFrom line ('#' :: text) = [] := by
  rw [itemsFrom_cons, cut_sign, Piece.cutDirective, whole, itemsFrom_nil]
  rfl

/-- A newline behind a directive that takes the whole text adds nothing. -/
theorem itemsFrom_directive_newline {text : List Char} (line : Nat) (whole : (directiveBody text).2 = []) :
    itemsFrom line ('#' :: (text ++ ['\n'])) = [] := by
  rcases directiveBody_append_last_newline whole with further | further
  · exact itemsFrom_directive line further
  · rw [itemsFrom_cons, cut_sign, Piece.cutDirective, further, itemsFrom_newline, itemsFrom_nil]
    rfl

/-- The items of a text without a lexical fault, with a newline and more text behind it, are those of the text and
    then those of what is behind it, on the lines that they have there. -/
theorem itemsFrom_append_newline {text more : List Char} (ends : more = [] ∨ ¬ EndsContinued text) (line : Nat)
    (faultless : Faultless (itemsFrom line text)) :
    itemsFrom line (text ++ '\n' :: more) =
      itemsFrom line text ++ itemsFrom (line + newlines text + 1) more := by
  induction text using textInduction generalizing line with
  | nil => rw [List.nil_append, itemsFrom_newline, itemsFrom_nil, List.nil_append, newlines_nil, Nat.add_zero]
  | blank char text blank ih =>
    have lines := newlines_append [char] text
    rw [List.singleton_append] at lines
    rw [itemsFrom_blank blank] at faultless
    rw [List.cons_append, itemsFrom_blank blank, itemsFrom_blank blank, lines, ← Nat.add_assoc]
    exact ih (ends.imp_right fun free continued => free (continued.cons char)) _ faultless
  | visible char text visible ih =>
    have whole := Piece.cut_append char text
    have lines := newlines_append (Piece.cut char text).1.text (Piece.cut char text).2
    rw [whole] at lines
    by_cases continues : char = '#' ∧ (Piece.cut char text).2 = [] ∧ EndsContinued text
    · -- Such a directive may take the newline, which is then the last character.
      obtain ⟨rfl, taken, continued⟩ := continues
      obtain rfl : more = [] := ends.resolve_right fun free => free (continued.cons '#')
      rw [List.cons_append, itemsFrom_directive_newline line taken, itemsFrom_directive line taken, itemsFrom_nil]
      rfl
    · rw [itemsFrom_cons] at faultless
      have further := Piece.cut_append_newline visible (faultless.not_malformed _) (faultless.not_malformed _)
        (fun sign taken continued => continues ⟨sign, taken, continued⟩) more
      have onward := ih (ends.imp_right fun free continued => free (continued.of_suffix ⟨_, whole⟩)) _ faultless.behind
      rw [List.cons_append, itemsFrom_cons, further, itemsFrom_cons, onward, lines, List.append_assoc, Nat.add_assoc line]

/-- With a newline and more text behind a text its items stay up to any that is no unterminated literal or comment, as
    long as no lexical fault is before it. -/
theorem exists_itemsFrom_append_newline {text : List Char} {line : Nat} {front rest : List Item} {item : Item}
    (split : itemsFrom line text = front ++ item :: rest) (faultless : Faultless front)
    (string : item.value ≠ .error .unterminatedString) (comment : item.value ≠ .error .unterminatedComment)
    (more : List Char) : ∃ others, itemsFrom line (text ++ '\n' :: more) = front ++ item :: others := by
  induction text using textInduction generalizing line front with
  | nil => simp at split
  | blank char text blank ih =>
    rw [itemsFrom_blank blank] at split
    obtain ⟨others, further⟩ := ih split faultless
    exact ⟨others, by rw [List.cons_append, itemsFrom_blank blank, further]⟩
  | visible char text visible ih =>
    rw [itemsFrom_cons] at split
    -- The first piece is neither unterminated nor a directive that takes the rest of the text.
    have terminated : ∀ fault, fault ≠ .strayQuote → (Piece.cut char text).1.form ≠ .malformed fault := by
      intro fault unterminated malformed
      rw [item?_of_malformed malformed] at split
      cases front with
      | nil =>
        obtain ⟨rfl, -⟩ := List.cons.inj split
        cases fault with
        | unterminatedString => exact string rfl
        | unterminatedComment => exact comment rfl
        | strayQuote => exact unterminated rfl
      | cons first front =>
        obtain ⟨rfl, -⟩ := List.cons.inj split
        obtain ⟨kind, same⟩ := faultless _ List.mem_cons_self
        cases same
    have ends : char = '#' → (Piece.cut char text).2 = [] → ¬ EndsContinued text := by
      rintro rfl taken -
      rw [taken, itemsFrom_nil] at split
      cases front <;> cases split
    have further := Piece.cut_append_newline visible (terminated _ (by simp)) (terminated _ (by simp)) ends more
    rw [List.cons_append, itemsFrom_cons, further]
    cases here : (Piece.cut char text).1.item? line with
    | none =>
      rw [here] at split
      exact ih split faultless
    | some first =>
      rw [here] at split
      cases front with
      | nil =>
        obtain ⟨rfl, -⟩ := List.cons.inj split
        exact ⟨_, rfl⟩
      | cons other front =>
        obtain ⟨rfl, onward⟩ := List.cons.inj split
        obtain ⟨others, behind⟩ := ih onward fun item listed => faultless item (List.mem_cons_of_mem _ listed)
        exact ⟨others, by rw [behind]; rfl⟩

end Token

end ActorSurface
