import ActorSurface.Proofs.Token.Munch

/-!
Block comments wherever they begin. They are found by reading a text as the patterns of the lexical grammar say, but for
directives: what stands in a directive is read like any other text (`Passes`). That reading is determinate, so a place that
it reaches lies in no comment (`Outside.not_endsInComment`).
-/

namespace ActorSurface

namespace Token

open scoped Computability

open Pattern

/-! ### Reading for comments -/

/-- A block comment: its opening mark through the first closing mark behind it. -/
def BlockComment (comment : List Char) : Prop :=
  ∃ inside, comment = ['/', '*'] ++ inside ++ ['*', '/'] ∧ ¬ ['*', '/'] <:+: inside ++ ['*']

/-- Whether reading for comments passes over all that a rule matches. No comment begins in a token or in a line comment, but
    one may begin in a directive, and behind what opens no literal and no comment. -/
def Rule.isWhole : Rule → Bool
  | .blanks => false
  | .directive => false
  | .unterminatedString => false
  | .commentOpening => false
  | _ => true

/-- What reading for comments passes over at the front of a text, and what is behind that: a block comment, or else the
    longest match, if all of it is to be passed over, or else one character. -/
inductive Passes : List Char → List Char → Prop
  | comment {comment behind : List Char} : BlockComment comment → Passes comment behind
  | whole {rule : Rule} {lexeme behind : List Char} : rule.isWhole = true → Munch (lexeme ++ behind) rule lexeme →
      Passes lexeme behind
  | single {rule : Rule} {lexeme behind : List Char} {char : Char} : rule.isWhole = false →
      Munch (char :: behind) rule lexeme → (∀ comment, BlockComment comment → ¬ comment <+: char :: behind) →
      Passes [char] behind

/-- Reading for comments goes on from the beginning of a text to a place in it, behind `front` and before `behind`. -/
inductive Outside : List Char → List Char → List Char → Prop
  | here (text : List Char) : Outside text [] text
  | pass {taken rest front behind : List Char} : Passes taken rest → Outside rest front behind →
      Outside (taken ++ rest) (taken ++ front) behind

/-- A stretch at the beginning of a text ends in a block comment, behind the first and before the last character of it. -/
def EndsInComment (front behind : List Char) : Prop :=
  ∃ before inside after more, front = before ++ inside ∧ behind = after ++ more ∧ inside ≠ [] ∧ after ≠ [] ∧
    BlockComment (inside ++ after) ∧ Outside (front ++ behind) before (inside ++ after ++ more)

variable {text taken rest front behind : List Char}

theorem BlockComment.exists_munch {comment : List Char} (isComment : BlockComment comment) (behind : List Char) :
    Munch (comment ++ behind) .commentOpening ['/', '*'] := by
  obtain ⟨inside, rfl, -⟩ := isComment
  have opening := munch_commentOpening (inside ++ ['*', '/'] ++ behind)
  simpa using opening

/-- Two comments at one place are one. -/
theorem BlockComment.unique {one other behind more : List Char} (first : BlockComment one) (second : BlockComment other)
    (same : one ++ behind = other ++ more) : one = other ∧ behind = more := by
  obtain ⟨inside, rfl, ends⟩ := first
  obtain ⟨within, rfl, also⟩ := second
  have bodies : inside ++ ['*', '/'] ++ behind = within ++ ['*', '/'] ++ more := by simpa using same
  obtain ⟨rfl, rfl⟩ := closing_unique bodies ends also
  exact ⟨rfl, rfl⟩

/-- Reading for comments is determinate. -/
theorem Passes.unique {other more : List Char} (first : Passes taken rest) (second : Passes other more)
    (same : taken ++ rest = other ++ more) : taken = other ∧ rest = more := by
  cases first with
  | comment isComment =>
    have opening := isComment.exists_munch rest
    cases second with
    | comment also => exact isComment.unique also same
    | whole isWhole munch =>
      obtain ⟨rfl, -⟩ := opening.unique (same ▸ munch)
      cases isWhole
    | single _ _ free => exact absurd ⟨rest, same⟩ (free taken isComment)
  | whole isWhole munch =>
    cases second with
    | comment isComment =>
      obtain ⟨rfl, -⟩ := munch.unique (same ▸ isComment.exists_munch more)
      cases isWhole
    | whole _ also =>
      obtain ⟨-, rfl⟩ := munch.unique (same ▸ also)
      exact ⟨rfl, List.append_cancel_left same⟩
    | single notWhole also _ =>
      rw [same] at munch
      obtain ⟨rfl, -⟩ := munch.unique also
      rw [isWhole] at notWhole
      cases notWhole
  | single notWhole munch free =>
    cases second with
    | comment isComment => exact absurd ⟨more, same.symm⟩ (free other isComment)
    | whole isWhole also =>
      rw [← same] at also
      obtain ⟨rfl, -⟩ := munch.unique also
      rw [isWhole] at notWhole
      cases notWhole
    | single => exact ⟨by simpa using (List.cons.inj same).1, (List.cons.inj same).2⟩

theorem Outside.append (outside : Outside text front behind) : front ++ behind = text := by
  induction outside with
  | here => rfl
  | pass _ _ ih => rw [List.append_assoc, ih]

theorem Outside.trans {more last : List Char} (first : Outside text front behind) (second : Outside behind more last) :
    Outside text (front ++ more) last := by
  induction first with
  | here => exact second
  | pass passes _ ih =>
    rw [List.append_assoc]
    exact .pass passes (ih second)

theorem Outside.of_passes (passes : Passes taken rest) : Outside (taken ++ rest) taken rest := by
  simpa using Outside.pass passes (.here rest)

/-- Reading for comments has reached a place at once or behind what it passes over first. -/
theorem Outside.first (outside : Outside text front behind) :
    front = [] ∧ behind = text ∨ ∃ taken rest more, text = taken ++ rest ∧ front = taken ++ more ∧ Passes taken rest ∧
      Outside rest more behind := by
  cases outside with
  | here => exact .inl ⟨rfl, rfl⟩
  | pass passes onward => exact .inr ⟨_, _, _, rfl, rfl, passes, onward⟩

/-- A place that reading for comments reaches is in no comment. -/
theorem Outside.not_endsInComment (outside : Outside (front ++ behind) front behind) : ¬ EndsInComment front behind := by
  rintro ⟨before, inside, after, more, cut, rest, begun, unfinished, isComment, opened⟩
  generalize front ++ behind = text at outside opened
  induction outside generalizing before with
  | here => exact begun (List.append_eq_nil_iff.mp cut.symm).2
  | @pass taken rest front behind passes onward ih =>
    rcases opened.first with ⟨rfl, same⟩ | ⟨other, text, later, same, rfl, also, opened⟩
    · -- The comment begins here, so all of it is passed over at once.
      obtain ⟨rfl, -⟩ := passes.unique (.comment isComment) same.symm
      have lengths := congrArg List.length cut
      have some_character := List.length_pos_iff.mpr unfinished
      simp only [List.length_append, List.nil_append] at lengths
      omega
    · obtain ⟨rfl, rfl⟩ := passes.unique also same
      rw [List.append_assoc] at cut
      exact ih later (List.append_cancel_left cut) ‹_› opened

theorem EndsInComment.of_outside {before : List Char} (outside : Outside (before ++ (front ++ behind)) before (front ++ behind))
    (ends : EndsInComment front behind) : EndsInComment (before ++ front) behind := by
  obtain ⟨early, inside, after, more, rfl, rfl, begun, unfinished, isComment, opened⟩ := ends
  refine ⟨before ++ early, inside, after, more, by simp, rfl, begun, unfinished, isComment, ?_⟩
  have whole := outside.trans opened
  simpa using whole

/-! ### Characters of a match -/

/-- What holds of every character of an element holds of every character of a run of elements. -/
theorem forall_of_mem_kstar {element : Language Char} {holds : Char → Prop}
    (each : ∀ word ∈ element, ∀ char ∈ word, holds char) {run : List Char} (elements : run ∈ element∗) :
    ∀ char ∈ run, holds char := by
  obtain ⟨words, rfl, members⟩ := Language.mem_kstar.mp elements
  intro char listed
  obtain ⟨word, inside, here⟩ := List.mem_flatten.mp listed
  exact each word (members word inside) char here

theorem forall_of_mem_kstar_oneOf {admits : Char → Prop} {run : List Char} (elements : run ∈ (oneOf admits)∗) :
    ∀ char ∈ run, admits char := by
  refine forall_of_mem_kstar ?_ elements
  rintro word ⟨char, admitted, rfl⟩ other listed
  rwa [List.mem_singleton.mp listed]

theorem blank_of_mem {word : List Char} (member : word ∈ Rule.blanks.pattern) : ∀ char ∈ word, Blank char := by
  obtain ⟨first, run, blank, elements, rfl⟩ := mem_oneOf_mul.mp member
  intro char listed
  rcases List.mem_cons.mp listed with rfl | later
  · exact blank
  · exact forall_of_mem_kstar_oneOf elements char later

theorem literal_inLine : ∀ entry ∈ literals, ∀ char ∈ entry.1.toList, char ≠ '\n' := by
  have checked : literals.all (fun entry => entry.1.toList.all (· ≠ '\n')) = true := by decide
  exact fun entry listed => List.all_iff_forall_prop.mp (List.all_eq_true.mp checked entry listed)

theorem characterElement_inLine : ∀ word ∈ characterElement, ∀ char ∈ word, char ≠ '\n' := by
  intro word member
  rcases mem_characterElement.mp member with ⟨char, ⟨-, -, inLine⟩, rfl⟩ | ⟨char, inLine, rfl⟩
  · simpa using inLine
  · simpa using inLine

/-- No newline is in what reading for comments passes over in one, but for a string literal. -/
theorem inLine_of_isWhole {rule : Rule} {word : List Char} (isWhole : rule.isWhole = true)
    (notString : rule ≠ .stringLiteral) (member : word ∈ rule.pattern) : ∀ char ∈ word, char ≠ '\n' := by
  cases rule with
  | blanks => cases isWhole
  | directive => cases isWhole
  | unterminatedString => cases isWhole
  | commentOpening => cases isWhole
  | stringLiteral => exact absurd rfl notString
  | lineComment =>
    obtain ⟨run, elements, rfl⟩ := mem_lineComment.mp member
    simpa using forall_of_mem_kstar_oneOf elements
  | literal spelling kind =>
    obtain ⟨listed, rfl⟩ := mem_literal.mp member
    exact literal_inLine _ listed
  | identifier =>
    obtain ⟨first, run, letter, elements, rfl⟩ := mem_oneOf_mul.mp member
    rintro char listed rfl
    rcases List.mem_cons.mp listed with rfl | later
    · exact absurd letter (by decide)
    · exact absurd (forall_of_mem_kstar_oneOf elements _ later) (by decide)
  | number =>
    obtain ⟨first, run, digit, elements, rfl⟩ := mem_oneOf_mul.mp member
    rintro char listed rfl
    rcases List.mem_cons.mp listed with rfl | later
    · exact absurd digit (by decide)
    · exact absurd (forall_of_mem_kstar_oneOf elements _ later) (by decide)
  | characterLiteral =>
    obtain ⟨inner, elements, rfl⟩ := mem_characterLiteral.mp member
    simpa [or_imp, forall_and] using forall_of_mem_kstar characterElement_inLine elements
  | punctuation =>
    obtain ⟨char, other, rfl⟩ := member
    intro same listed newline
    obtain rfl := List.mem_singleton.mp listed
    subst newline
    exact other (by decide)

/-! ### Pieces outside of directives -/

theorem BlockComment.exists_cons {comment : List Char} (isComment : BlockComment comment) :
    ∃ inside, comment = '/' :: '*' :: inside := by
  obtain ⟨inside, rfl, -⟩ := isComment
  exact ⟨inside ++ ['*', '/'], rfl⟩

/-- A character that begins no comment is passed over by itself, where its longest match is not to be passed over. -/
theorem Passes.of_ne_slash {rule : Rule} {lexeme : List Char} {char : Char} (notWhole : rule.isWhole = false)
    (munch : Munch (char :: behind) rule lexeme) (notSlash : char ≠ '/') : Passes [char] behind := by
  refine .single notWhole munch fun comment isComment atFront => ?_
  obtain ⟨inside, rfl⟩ := isComment.exists_cons
  exact notSlash (List.cons_prefix_cons.mp atFront).1.symm

theorem outside_blanks {blanks : List Char} (blank : ∀ char ∈ blanks, Blank char) (behind : List Char) :
    Outside (blanks ++ behind) blanks behind := by
  induction blanks with
  | nil => exact .here behind
  | cons char blanks ih =>
    have isBlank := blank char List.mem_cons_self
    have notSlash : char ≠ '/' := by
      rintro rfl
      exact absurd isBlank (by decide)
    exact .pass (.of_ne_slash rfl (munch_blanks isBlank (blanks ++ behind)) notSlash)
      (ih fun other listed => blank other (List.mem_cons_of_mem _ listed))

/-- Whatever a text begins with, reading for comments goes on: over a comment, over the longest match, or over one
    character. -/
theorem exists_passes (char : Char) (text : List Char) :
    ∃ taken rest, taken ++ rest = char :: text ∧ Passes taken rest ∧
      (BlockComment taken ∨ (∃ rule : Rule, rule.isWhole = true ∧ Munch (char :: text) rule taken) ∨ taken = [char]) := by
  obtain ⟨rule, lexeme, behind, munch, whole, -⟩ := reference_cut char text
  by_cases comment : ∃ comment, BlockComment comment ∧ comment <+: char :: text
  · obtain ⟨comment, isComment, rest, split⟩ := comment
    exact ⟨comment, rest, split, .comment isComment, .inl isComment⟩
  · cases isWhole : rule.isWhole with
    | true => exact ⟨lexeme, behind, whole, .whole isWhole (whole ▸ munch), .inr (.inl ⟨rule, isWhole, munch⟩)⟩
    | false =>
      refine ⟨[char], text, rfl, .single isWhole munch ?_, .inr (.inr rfl)⟩
      exact fun other isComment atFront => comment ⟨other, isComment, atFront⟩

/-- Reading for comments goes on from the front of a piece to its end, if the piece is no directive and not malformed. -/
theorem outside_of_cut {char : Char} {text : List Char} (notSign : char ≠ '#')
    (formed : ∀ fault, (Piece.cut char text).1.form ≠ .malformed fault) :
    Outside (char :: text) (Piece.cut char text).1.text (Piece.cut char text).2 := by
  obtain ⟨rule, lexeme, behind, munch, whole, outcome⟩ := reference_cut char text
  have notDirective : rule ≠ .directive := by
    rintro rfl
    exact notSign (begins_of_front munch.matched munch.front)
  rw [← Piece.cut_append char text] at munch ⊢
  generalize Piece.cut char text = cut at munch outcome formed ⊢
  obtain ⟨⟨form, taken⟩, rest⟩ := cut
  have notFailure : ∀ message, Match.ofForm form ≠ .failure message := by
    intro message same
    cases form with
    | skipped => cases same
    | token => cases same
    | malformed fault => exact formed fault rfl
  generalize Match.ofForm form = meant at outcome notFailure
  cases outcome with
  | plain meaning =>
    cases rule with
    | blanks => exact outside_blanks (blank_of_mem munch.matched) rest
    | directive => exact absurd rfl notDirective
    | unterminatedString =>
      obtain rfl := Option.some.inj meaning
      exact absurd rfl (notFailure _)
    | commentOpening => cases meaning
    | _ => exact .of_passes (.whole rfl munch)
  | comment opening split ends =>
    subst opening
    obtain rfl := mem_commentOpening.mp munch.matched
    exact .of_passes (.comment ⟨_, rfl, ends⟩)
  | unterminatedComment => exact absurd rfl (notFailure _)
  | stray => exact absurd rfl (notFailure _)
  | swallows swallows => exact absurd swallows.1 notDirective

end Token

end ActorSurface
