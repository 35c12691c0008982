import ActorSurface.Proofs.Token.Comments
import ActorSurface.Proofs.Token.Items
import ActorSurface.Proofs.Token.Readings

/-!
Block comments and what the lexer makes of them. A directive is skipped up to its end, whatever begins in it; so it can end
in a comment, and it is the only piece of a text that can (`opaqueComments_iff`). Everything else that begins in a directive
ends in it too, string literals over continued lines included (`outside_or_endsInComment`). Where no directive ends in a
comment, no token begins in one (`tokens_outside_comments`).
-/

namespace ActorSurface

namespace Token

open Pattern

variable {text body rest : List Char}

/-! ### Directives -/

/-- A directive ends at the end of the text or before a newline. -/
theorem directiveBody_rest (split : directiveBody text = (body, rest)) : rest = [] ∨ ∃ more, rest = '\n' :: more := by
  fun_induction directiveBody text generalizing body with
  | case1 =>
    obtain ⟨-, rfl⟩ := Prod.mk.inj split
    exact .inl rfl
  | case2 text inner behind inside ih =>
    obtain ⟨-, rfl⟩ := Prod.mk.inj split
    exact ih inside
  | case3 escaped text notTriple inner behind inside ih =>
    obtain ⟨-, rfl⟩ := Prod.mk.inj split
    exact ih inside
  | case4 text =>
    obtain ⟨-, rfl⟩ := Prod.mk.inj split
    exact .inr ⟨text, rfl⟩
  | case5 char text notTriple notEscape inLine inner behind inside ih =>
    obtain ⟨-, rfl⟩ := Prod.mk.inj split
    exact ih inside

/-- A string literal that a directive begins to hold it holds whole. -/
theorem directiveBody_of_string (closed : stringBody text = (body, '"' :: rest)) :
    directiveBody text = (body ++ '"' :: (directiveBody rest).1, (directiveBody rest).2) := by
  fun_induction stringBody text generalizing body with
  | case1 => cases closed
  | case2 escaped text inner behind split ih =>
    obtain ⟨rfl, rfl⟩ := Prod.mk.inj closed
    -- The string would not be closed behind a carriage return that a newline follows.
    have notContinued : ∀ more, escaped = '\r' → text = '\n' :: more → False := by
      rintro more rfl rfl
      simp [stringBody] at split
    rw [directiveBody, ih split]
    · rfl
    · exact notContinued
  | case3 char text notEscape ends =>
    obtain ⟨rfl, same⟩ := Prod.mk.inj closed
    obtain ⟨rfl, rfl⟩ := List.cons.inj same
    simp [directiveBody]
  | case4 char text notEscape goes inner behind split ih =>
    obtain ⟨rfl, rfl⟩ := Prod.mk.inj closed
    simp only [Bool.or_eq_true, decide_eq_true_eq, not_or] at goes
    simp [directiveBody, goes, ih split]

theorem suffix_of_cons_ne {char first : Char} {tail whole : List Char} (other : char ≠ first)
    (suffix : char :: tail <:+ first :: whole) : char :: tail <:+ whole :=
  (List.suffix_cons_iff.mp suffix).resolve_left fun same => other (List.cons.inj same).1

/-- Behind a double quote in it a directive goes on as at its beginning. -/
theorem directiveBody_behind_quote {tail : List Char} (split : directiveBody text = (body, rest))
    (suffix : '"' :: tail <:+ body) : directiveBody (tail ++ rest) = (tail, rest) := by
  fun_induction directiveBody text generalizing body with
  | case1 =>
    obtain ⟨rfl, rfl⟩ := Prod.mk.inj split
    simp at suffix
  | case2 text inner behind inside ih =>
    obtain ⟨rfl, rfl⟩ := Prod.mk.inj split
    have later := suffix_of_cons_ne (by decide) (suffix_of_cons_ne (by decide) (suffix_of_cons_ne (by decide) suffix))
    exact ih inside later
  | case3 escaped text notContinued inner behind inside ih =>
    obtain ⟨rfl, rfl⟩ := Prod.mk.inj split
    have whole := directiveBody_append text
    rw [inside] at whole
    rcases List.suffix_cons_iff.mp (suffix_of_cons_ne (by decide) suffix) with here | later
    · obtain ⟨-, rfl⟩ := List.cons.inj here
      rw [whole, inside]
    · exact ih inside later
  | case4 text =>
    obtain ⟨rfl, rfl⟩ := Prod.mk.inj split
    simp at suffix
  | case5 char text notContinued notEscape inLine inner behind inside ih =>
    obtain ⟨rfl, rfl⟩ := Prod.mk.inj split
    have whole := directiveBody_append text
    rw [inside] at whole
    rcases List.suffix_cons_iff.mp suffix with here | later
    · obtain ⟨-, rfl⟩ := List.cons.inj here
      rw [whole, inside]
    · exact ih inside later

/-- The longest match that is a string literal is told by its body. -/
theorem stringBody_of_munch {char : Char} {lexeme : List Char} (munch : Munch (char :: text) .stringLiteral lexeme) :
    ∃ body behind, char = '"' ∧ lexeme = '"' :: (body ++ ['"']) ∧ stringBody text = (body, '"' :: behind) := by
  obtain ⟨body, elements, rfl⟩ := mem_stringLiteral.mp munch.matched
  obtain ⟨rfl, front⟩ := List.cons_prefix_cons.mp munch.front
  have same := longestRun_unique (quoted_stringElement.longestRun elements front) (longestRun_stringBody text)
  have whole := stringBody_append text
  obtain ⟨behind, split⟩ := front
  rw [← same, ← split, List.append_assoc] at whole
  refine ⟨body, behind, rfl, rfl, Prod.ext same.symm ?_⟩
  rw [← split]
  simpa using whole

/-- What is passed over in a directive ends in it, unless it is a block comment. -/
theorem prefix_or_comment {char : Char} {inner taken behind : List Char} (split : directiveBody text = (body, rest))
    (suffix : char :: inner <:+ '#' :: body) (whole : taken ++ behind = (char :: inner) ++ rest)
    (passed : BlockComment taken ∨ (∃ rule : Rule, rule.isWhole = true ∧ Munch (char :: (inner ++ rest)) rule taken) ∨
      taken = [char]) : taken <+: char :: inner ∨ BlockComment taken := by
  rcases passed with isComment | ⟨rule, isWhole, munch⟩ | rfl
  · exact .inr isComment
  · left
    by_cases isString : rule = .stringLiteral
    · subst isString
      obtain ⟨literal, more, rfl, rfl, closed⟩ := stringBody_of_munch munch
      have afresh := directiveBody_behind_quote split (suffix_of_cons_ne (by decide) suffix)
      rw [directiveBody_of_string closed] at afresh
      refine ⟨(directiveBody more).1, ?_⟩
      rw [← (Prod.mk.inj afresh).1]
      simp
    · -- It holds no newline, so it ends before the one that ends the directive.
      have inLine := inLine_of_isWhole isWhole isString munch.matched
      rcases List.append_eq_append_iff.mp whole with
        ⟨more, cut, -⟩ | ⟨more, rfl, left⟩
      · exact ⟨more, cut.symm⟩
      · cases more with
        | nil => exact ⟨[], by simp⟩
        | cons first more =>
          rcases directiveBody_rest split with rfl | ⟨behindNewline, rfl⟩
          · cases left
          · obtain ⟨rfl, -⟩ := List.cons.inj left
            exact absurd rfl (inLine '\n' (by simp))
  · exact .inl (by simp)

theorem Passes.ne_nil {taken behind : List Char} (passes : Passes taken behind) : taken ≠ [] := by
  cases passes with
  | comment isComment =>
    obtain ⟨inside, rfl⟩ := isComment.exists_cons
    simp
  | whole _ munch =>
    obtain ⟨char, tail, rfl, -⟩ := exists_cons munch.matched
    simp
  | single => simp

/-- From anywhere in a directive reading for comments goes on to its end, or a comment goes on there. -/
theorem outside_or_endsInComment {inner : List Char} (split : directiveBody text = (body, rest))
    (suffix : inner <:+ '#' :: body) : Outside (inner ++ rest) inner rest ∨ EndsInComment inner rest := by
  induction length : inner.length using Nat.strongRecOn generalizing inner with
  | ind count ih =>
    subst length
    cases inner with
    | nil => exact .inl (.here rest)
    | cons char inner =>
      obtain ⟨taken, behind, whole, passes, passed⟩ := exists_passes char (inner ++ rest)
      rw [← List.cons_append] at whole
      have nonempty := List.length_pos_iff.mpr passes.ne_nil
      -- Where what is passed over ends in the directive, reading goes on behind it.
      have goesOn : taken <+: char :: inner →
          Outside (char :: inner ++ rest) (char :: inner) rest ∨ EndsInComment (char :: inner) rest := by
        rintro ⟨more, cut⟩
        rw [← cut, List.append_assoc] at whole
        rw [← cut, List.append_assoc]
        obtain rfl : behind = more ++ rest := List.append_cancel_left whole
        have step := Outside.of_passes passes
        have shorter : more.length < (char :: inner).length := by
          rw [← cut, List.length_append]
          omega
        rcases ih _ shorter (.trans ⟨taken, cut⟩ suffix) rfl with onward | ends
        · exact .inl (step.trans onward)
        · exact .inr (ends.of_outside step)
      rcases prefix_or_comment split suffix whole passed with atFront | isComment
      · exact goesOn atFront
      · rcases List.append_eq_append_iff.mp whole with
          ⟨more, cut, -⟩ | ⟨more, rfl, rfl⟩
        · exact goesOn ⟨more, cut.symm⟩
        · by_cases ended : more = []
          · exact goesOn (by simp [ended])
          · refine .inr ⟨[], char :: inner, more, behind, rfl, rfl, by simp, ended, isComment, ?_⟩
            simpa using Outside.here (char :: inner ++ (more ++ behind))

/-! ### Pieces -/

/-- Some of the pieces of a text, with those behind them, where none of them ends the reading: no one is malformed. -/
structure ReadsOn (text : List Char) (front back : List Piece) : Prop where
  split : pieces text = front ++ back
  formed : ∀ piece ∈ front, ∀ fault, piece.form ≠ .malformed fault

theorem ReadsOn.text_eq {front back : List Piece} (reads : ReadsOn text front back) :
    front.flatMap Piece.text ++ back.flatMap Piece.text = text := by
  have whole := flatMap_text_pieces text
  rwa [reads.split, List.flatMap_append] at whole

/-- Reading for comments goes on to where the pieces of a text end, if none of them is a directive that ends in a comment. -/
theorem outside_of_pieces {front back : List Piece} (reads : ReadsOn text front back)
    (directives : ∀ early directive late, front = early ++ directive :: late → directive.form = .skipped .directive →
      ¬ EndsInComment ((early ++ [directive]).flatMap Piece.text) ((late ++ back).flatMap Piece.text)) :
    Outside text (front.flatMap Piece.text) (back.flatMap Piece.text) := by
  induction front generalizing text with
  | nil =>
    rw [← reads.text_eq]
    exact .here _
  | cons piece front ih =>
    cases text with
    | nil =>
      have empty := reads.split
      rw [pieces_nil] at empty
      cases empty
    | cons char text =>
      have split := reads.split
      rw [pieces_cons] at split
      obtain ⟨rfl, behind⟩ := List.cons.inj split
      have onward : ReadsOn (Piece.cut char text).2 front back :=
        ⟨behind, fun other listed => reads.formed other (List.mem_cons_of_mem _ listed)⟩
      have later : (front ++ back).flatMap Piece.text = (Piece.cut char text).2 := by
        rw [List.flatMap_append, onward.text_eq]
      have first : Outside (char :: text) (Piece.cut char text).1.text (Piece.cut char text).2 := by
        by_cases sign : char = '#'
        · subst sign
          have reached := outside_or_endsInComment rfl (List.suffix_refl ('#' :: (directiveBody text).1))
          rw [List.cons_append, directiveBody_append] at reached
          refine reached.resolve_right fun ends => directives [] _ front rfl rfl ?_
          rw [later, List.nil_append, List.flatMap_singleton]
          exact ends
        · exact outside_of_cut sign (reads.formed _ List.mem_cons_self)
      rw [List.flatMap_cons]
      refine first.trans (ih onward ?_)
      rintro early directive late rfl isDirective ends
      refine directives (_ :: early) directive late rfl isDirective ?_
      rw [List.cons_append, List.flatMap_cons]
      refine ends.of_outside ?_
      have behindFirst : (early ++ [directive]).flatMap Piece.text ++ (late ++ back).flatMap Piece.text =
          (Piece.cut char text).2 := by
        rw [← later, ← List.flatMap_append]
        simp
      rw [behindFirst, Piece.cut_append]
      exact first

/-- The block comments of a text are opaque where no piece of it begins in one. -/
def OpaqueComments (text : List Char) : Prop :=
  ∀ front back, ReadsOn text front back → ¬ EndsInComment (front.flatMap Piece.text) (back.flatMap Piece.text)

/-- Of all pieces directives alone can end in a comment. -/
theorem opaqueComments_iff (text : List Char) :
    OpaqueComments text ↔ ∀ front directive back, ReadsOn text (front ++ [directive]) back →
      directive.form = .skipped .directive →
        ¬ EndsInComment ((front ++ [directive]).flatMap Piece.text) (back.flatMap Piece.text) := by
  constructor
  · exact fun hidden front directive back reads _ => hidden (front ++ [directive]) back reads
  · intro directives front back reads
    have outside : Outside text (front.flatMap Piece.text) (back.flatMap Piece.text) := by
      refine outside_of_pieces reads ?_
      rintro early directive late rfl isDirective
      refine directives early directive (late ++ back) ⟨?_, ?_⟩ isDirective
      · rw [reads.split]
        simp
      · intro piece listed
        exact reads.formed piece (by simp at listed ⊢; tauto)
    rw [← reads.text_eq] at outside
    exact outside.not_endsInComment

/-! ### Tokens -/

/-- A token of a text begins in a block comment of it, at the first character of the comment or behind it. -/
def StartsInComment (text : List Char) (token : Token) : Prop :=
  ∃ before comment behind, Outside text before (comment ++ behind) ∧ BlockComment comment ∧
    Utf8.size before ≤ token.start ∧ token.start < Utf8.size (before ++ comment)

/-- A token that is delivered is the end of the text, or it is read of a piece behind pieces that are not malformed. -/
theorem exists_piece_of_mem_tokensOf {offset : Nat} {pieces : List Piece} {token stop : Token}
    (listed : token ∈ (Cursor.tokensOf (readingsAt offset pieces ++ [.ok stop])).1) :
    token = stop ∨ ∃ front piece back, pieces = front ++ piece :: back ∧
      (∀ other ∈ front, ∀ fault, other.form ≠ .malformed fault) ∧ piece.form = .token token.kind ∧
      token.start = offset + Utf8.size (front.flatMap Piece.text) := by
  induction pieces generalizing offset with
  | nil =>
    have last : (Cursor.tokensOf [.ok stop]).1 = [stop] := by
      rw [Cursor.tokensOf]
      split <;> rfl
    rw [readingsAt, List.nil_append, last] at listed
    exact .inl (List.mem_singleton.mp listed)
  | cons piece rest ih =>
    -- A token behind the first piece stands behind it in the pieces too.
    have later : (∀ fault, piece.form ≠ .malformed fault) →
        token ∈ (Cursor.tokensOf (readingsAt (offset + piece.size) rest ++ [.ok stop])).1 →
        token = stop ∨ ∃ front other back, piece :: rest = front ++ other :: back ∧
          (∀ other ∈ front, ∀ fault, other.form ≠ .malformed fault) ∧ other.form = .token token.kind ∧
          token.start = offset + Utf8.size (front.flatMap Piece.text) := by
      intro formed behind
      refine (ih behind).imp_right ?_
      rintro ⟨front, other, back, rfl, others, form, start⟩
      refine ⟨piece :: front, other, back, rfl, ?_, form, ?_⟩
      · simpa using ⟨formed, others⟩
      · rw [start, List.flatMap_cons, Utf8.size_append, Piece.size, Nat.add_assoc]
    rw [readingsAt, Piece.reading?] at listed
    split at listed
    next what form => exact later (by simp [form]) listed
    next kind form =>
      rw [Option.toList_some, List.singleton_append, List.cons_append, Cursor.tokensOf] at listed
      split at listed
      next =>
        obtain rfl := List.mem_singleton.mp listed
        exact .inr ⟨[], piece, rest, rfl, by simp, form, rfl⟩
      next =>
        rcases List.mem_cons.mp listed with rfl | behind
        · exact .inr ⟨[], piece, rest, rfl, by simp, form, rfl⟩
        · exact later (by simp [form]) behind
    next fault form => cases listed

/-- What stands at a block comment is no token. -/
theorem form_of_comment {comment behind : List Char} {kind : Kind} {char : Char} (isComment : BlockComment comment)
    (same : char :: text = comment ++ behind) : (Piece.cut char text).1.form ≠ .token kind := by
  obtain ⟨inside, rfl⟩ := isComment.exists_cons
  obtain ⟨rfl, rfl⟩ := List.cons.inj same
  change (Piece.cutSlash ('*' :: (inside ++ behind))).1.form ≠ .token kind
  rw [Piece.cutSlash]
  split <;> simp

/-- A place at or behind another one, by the bytes before it. -/
theorem prefix_of_size_le {one other more last : List Char} (same : one ++ more = other ++ last)
    (bytes : Utf8.size one ≤ Utf8.size other) : one <+: other := by
  rcases List.append_eq_append_iff.mp same with ⟨between, rfl, -⟩ | ⟨between, rfl, -⟩
  · exact List.prefix_append ..
  · cases between with
    | nil => simp
    | cons char between =>
      have some_byte := char.utf8Size_pos
      rw [Utf8.size_append, Utf8.size] at bytes
      omega

/-- A token that is read of a piece begins in no comment, where the comments are opaque. -/
theorem OpaqueComments.not_in_comment {front back : List Piece} {piece : Piece} {kind : Kind} (hidden : OpaqueComments text)
    (reads : ReadsOn text front (piece :: back)) (form : piece.form = .token kind) {before comment behind : List Char}
    (outside : Outside text before (comment ++ behind)) (isComment : BlockComment comment)
    (start : Utf8.size before ≤ Utf8.size (front.flatMap Piece.text)) :
    Utf8.size (before ++ comment) ≤ Utf8.size (front.flatMap Piece.text) := by
  have whole := reads.text_eq
  have same := outside.append.trans whole.symm
  obtain ⟨inside, place⟩ := prefix_of_size_le same start
  by_contra short
  rw [← place, List.append_assoc, List.append_cancel_left_eq] at same
  rw [← place, Utf8.size_append, Utf8.size_append] at short
  obtain ⟨after, rfl⟩ := prefix_of_size_le same.symm (by omega)
  rw [List.append_assoc, List.append_cancel_left_eq] at same
  have unfinished : after ≠ [] := by
    rintro rfl
    simp at short
  by_cases begun : inside = []
  · -- The comment begins with the piece, which is then that comment or malformed.
    subst begun
    have cut := pieces_of_append reads.split
    cases rest : (piece :: back).flatMap Piece.text with
    | nil =>
      rw [rest, pieces_nil] at cut
      cases cut
    | cons char text =>
      rw [rest, pieces_cons] at cut
      rw [(List.cons.inj cut).1] at form
      exact form_of_comment isComment (rest ▸ same.symm) form
  · refine hidden front (piece :: back) reads ⟨before, inside, after, behind, place.symm, same.symm, begun, unfinished,
      isComment, ?_⟩
    rw [whole]
    exact outside

/-- The block comments of a source are opaque just where no directive of it ends in one; and then no token that is delivered
    begins in one. -/
theorem tokens_outside_comments (source : String) :
    (OpaqueComments source.toList ↔ ∀ front directive back, ReadsOn source.toList (front ++ [directive]) back →
      directive.form = .skipped .directive →
        ¬ EndsInComment ((front ++ [directive]).flatMap Piece.text) (back.flatMap Piece.text)) ∧
      (OpaqueComments source.toList →
        ∀ token ∈ (Cursor.ofText source.toList).tokens.1, ¬ StartsInComment source.toList token) := by
  refine ⟨opaqueComments_iff _, ?_⟩
  rintro hidden token listed ⟨before, comment, behind, outside, isComment, start, stop⟩
  rcases exists_piece_of_mem_tokensOf listed with rfl | ⟨front, piece, back, split, formed, form, place⟩
  · have whole := congrArg Utf8.size outside.append
    have last : Utf8.size source.toList < Utf8.size (before ++ comment) := stop
    rw [← List.append_assoc, Utf8.size_append] at whole
    omega
  · rw [Nat.zero_add] at place
    rw [place] at start stop
    have behindComment := hidden.not_in_comment ⟨split, formed⟩ form outside isComment start
    omega

/-! ### A comment that a directive ends in -/

theorem passes_sign (behind : List Char) : Passes ['#'] behind := by
  obtain ⟨run, longest, -⟩ := directiveBody_run behind
  exact .of_ne_slash rfl (munch_directive longest) (by decide)

/-- Reading for comments goes on over a token. -/
theorem outside_of_token {char : Char} {text taken rest : List Char} {kind : Kind}
    (cut : Piece.cut char text = (⟨.token kind, taken⟩, rest)) : Outside (char :: text) taken rest := by
  have formed : ∀ fault, (Piece.cut char text).1.form ≠ .malformed fault := by simp [cut]
  have notSign : char ≠ '#' := by
    rintro rfl
    cases cut
  have outside := outside_of_cut notSign formed
  rwa [cut] at outside

theorem outside_of_space (behind : List Char) : Outside (' ' :: behind) [' '] behind :=
  @outside_blanks [' '] (List.forall_mem_singleton.mpr (by decide)) behind

/-- That no token begins in a block comment is not so: a directive ends before the comment that begins in it does. -/
theorem not_all_tokens_outside_comments :
    ¬ ∀ source : String, ∀ token ∈ (Cursor.ofText source.toList).tokens.1, ¬ StartsInComment source.toList token := by
  intro claimed
  have listed : ⟨.identifier "b", 12, 13⟩ ∈ (Cursor.ofText "#else /* a\n b */ c".toList).tokens.1 := by
    decide +kernel
  have text : "#else /* a\n b */ c".toList = ['#', 'e', 'l', 's', 'e', ' '] ++
      (['/', '*', ' ', 'a', '\n', ' ', 'b', ' ', '*', '/'] ++ [' ', 'c']) := by decide +kernel
  have isComment : BlockComment ['/', '*', ' ', 'a', '\n', ' ', 'b', ' ', '*', '/'] :=
    ⟨[' ', 'a', '\n', ' ', 'b', ' '], rfl, by decide⟩
  have word := @outside_of_token 'e' ['l', 's', 'e', ' ', '/', '*', ' ', 'a', '\n', ' ', 'b', ' ', '*', '/', ' ', 'c']
    ['e', 'l', 's', 'e'] [' ', '/', '*', ' ', 'a', '\n', ' ', 'b', ' ', '*', '/', ' ', 'c'] (.identifier "else")
    (by decide +kernel)
  have begun := (Outside.of_passes (passes_sign _)).trans (word.trans (outside_of_space _))
  refine claimed _ _ listed ⟨['#', 'e', 'l', 's', 'e', ' '], _, [' ', 'c'], ?_, isComment, by decide, by decide⟩
  rw [text]
  exact begun

end Token

end ActorSurface
