import ActorSurface.Proofs.Token.Dispatch

/-!
The first piece of a text is what the reference says stands there: its form, its characters and what is
behind it (`reference_cut`). There is one lemma for each class of first characters.
-/

namespace ActorSurface

namespace Token

open scoped Computability

open Pattern

/-! ### Classes -/

theorem isBlank_iff (char : Char) : isBlank char = true ↔ Blank char := by
  simp [isBlank, Blank, or_assoc]

theorem isDigit_iff (char : Char) : char.isDigit = true ↔ Digit char := by
  simp [Char.isDigit, Digit, Between, Char.le_def]

theorem isUpper_iff (char : Char) : char.isUpper = true ↔ Between 'A' 'Z' char :=
  decide_eq_true_iff

theorem isLower_iff (char : Char) : char.isLower = true ↔ Between 'a' 'z' char := by
  change (decide (char ≥ 'a') && decide (char ≤ 'z')) = true ↔ _
  simp [Between]

theorem isWordStart_iff (char : Char) : isWordStart char = true ↔ Letter char := by
  change (char.isUpper || char.isLower || decide (char = '_')) = true ↔ _
  rw [Bool.or_eq_true, Bool.or_eq_true, isUpper_iff, isLower_iff, decide_eq_true_iff]
  unfold Letter
  tauto

theorem isWordPart_iff (char : Char) : isWordPart char = true ↔ Letter char ∨ Digit char := by
  rw [← isDigit_iff, ← isWordStart_iff]
  simp [isWordPart, isWordStart, Char.isAlphanum]
  tauto

theorem isNumberPart_iff (char : Char) :
    isNumberPart char = true ↔ Digit char ∨ Letter char ∨ char = '.' ∨ char = '\'' := by
  unfold isNumberPart
  rw [Bool.or_eq_true, Bool.or_eq_true, isWordPart_iff, decide_eq_true_iff, decide_eq_true_iff]
  tauto

/-! ### Longest matches -/

/-- Where one rule only can match, its longest word is the longest match. -/
theorem munch_of_only {char : Char} {text : List Char} {rule : Rule} {lexeme : List Char}
    (only : ∀ other : Rule, other.Begins char → other = rule) (plain : rule ≠ .identifier)
    (matched : lexeme ∈ rule.pattern) (front : lexeme <+: char :: text)
    (longest : ∀ word ∈ rule.pattern, word <+: char :: text → word.length ≤ lexeme.length) :
    Munch (char :: text) rule lexeme := by
  refine ⟨matched, front, fun other word member atFront => ?_, fun identifier => absurd identifier plain⟩
  obtain rfl := only other (begins_of_front member atFront)
  exact longest word member atFront

theorem LongestRun.cons_length_le {element : Language Char} {text run word : List Char}
    (longest : LongestRun element text run) (char : Char) (elements : word ∈ element∗)
    (front : char :: word <+: char :: text) : (char :: word).length ≤ (char :: run).length :=
  Nat.succ_le_succ (longest.longest word elements (List.cons_prefix_cons.mp front).2)

/-- Among the words of a first character and others behind it, the longest at the front of a text goes on as long as the
    test for the others holds. -/
theorem longest_class {first others : Char → Prop} {test : Char → Bool}
    (agree : ∀ char, test char = true ↔ others char) {char : Char} (begins : first char) (text : List Char) :
    let lexeme := char :: text.takeWhile test
    lexeme ∈ oneOf first * (oneOf others)∗ ∧ lexeme <+: char :: text ∧
      ∀ word ∈ oneOf first * (oneOf others)∗, word <+: char :: text → word.length ≤ lexeme.length := by
  have run := longestRun_takeWhile others test agree text
  refine ⟨mem_oneOf_mul.mpr ⟨char, _, begins, run.elements, rfl⟩, List.cons_prefix_cons.mpr ⟨rfl, run.front⟩, ?_⟩
  intro word member front
  obtain ⟨start, behind, -, elements, rfl⟩ := mem_oneOf_mul.mp member
  obtain ⟨rfl, -⟩ := List.cons_prefix_cons.mp front
  exact run.cons_length_le start elements front

theorem munch_blanks {char : Char} (blank : Blank char) (text : List Char) :
    Munch (char :: text) .blanks (char :: text.takeWhile isBlank) := by
  obtain ⟨matched, front, longest⟩ := longest_class isBlank_iff blank text
  exact munch_of_only (fun other => begins_blank blank) nofun matched front longest

theorem munch_number {char : Char} (digit : Digit char) (text : List Char) :
    Munch (char :: text) .number (char :: text.takeWhile isNumberPart) := by
  obtain ⟨matched, front, longest⟩ := longest_class isNumberPart_iff digit text
  exact munch_of_only (fun other => begins_digit digit) nofun matched front longest

theorem munch_directive {text run : List Char} (longest : LongestRun directiveElement text run) :
    Munch ('#' :: text) .directive ('#' :: run) := by
  refine munch_of_only (fun other => begins_numberSign) nofun ?_ ?_ ?_
  · exact mem_directive.mpr ⟨run, longest.elements, rfl⟩
  · exact List.cons_prefix_cons.mpr ⟨rfl, longest.front⟩
  · intro word member front
    obtain ⟨behind, elements, rfl⟩ := mem_directive.mp member
    exact longest.cons_length_le '#' elements front

theorem munch_punctuation {char : Char} (other : ¬ Reserved char) (text : List Char) :
    Munch (char :: text) .punctuation [char] := by
  refine munch_of_only (fun rule => begins_other other) nofun ⟨char, other, rfl⟩ ⟨text, rfl⟩ ?_
  rintro word ⟨first, -, rfl⟩ -
  exact Nat.le_refl 1

theorem literal_delimiter :
    ∀ char ∈ delimiters, (String.singleton char, Kind.ofCharacter char) ∈ literals :=
  List.all_iff_forall_prop.mp (by decide)

theorem literal_of_delimiter : ∀ char ∈ delimiters, ∀ entry ∈ literals, entry.1.toList.head? = some char →
    entry.1.toList = [char] :=
  List.all_iff_forall_prop.mp (by decide)

theorem munch_delimiter {char : Char} (delimiter : char ∈ delimiters) (text : List Char) :
    Munch (char :: text) (.literal (String.singleton char) (.ofCharacter char)) [char] := by
  refine ⟨⟨literal_delimiter char delimiter, by simp⟩, ⟨text, rfl⟩, fun other word member front => ?_, nofun⟩
  obtain ⟨spelling, kind, rfl⟩ := begins_delimiter delimiter (begins_of_front member front)
  obtain ⟨listed, begins⟩ := begins_of_front member front
  obtain ⟨-, rfl⟩ := mem_literal.mp member
  rw [literal_of_delimiter char delimiter _ listed begins]

/-! ### Words -/

/-- The spellings that begin with a letter are words, and keywords. -/
theorem literal_word : ∀ entry ∈ literals, ∀ char ∈ entry.1.toList.head?, Letter char →
    entry ∈ Kind.keywords ∧ ∀ part ∈ entry.1.toList.tail, Letter part ∨ Digit part := by
  have words : ∀ entry ∈ literals, ∀ char ∈ entry.1.toList.head?, Letter char →
      entry ∈ Kind.keywords ∧ (entry.1.toList.tail.all fun part => Letter part ∨ Digit part) = true :=
    literal_head (by decide)
  intro entry listed char first letter
  obtain ⟨keyword, parts⟩ := words entry listed char first letter
  exact ⟨keyword, List.all_iff_forall_prop.mp parts⟩

theorem literal_of_keyword : ∀ entry ∈ Kind.keywords, entry ∈ literals := by decide

theorem mem_kstar_oneOf {admits : Char → Prop} {run : List Char} (all : ∀ char ∈ run, admits char) :
    run ∈ (oneOf admits)∗ := by
  induction run with
  | nil => exact Language.nil_mem_kstar _
  | cons char run ih =>
    have first : [char] ∈ oneOf admits := ⟨char, all char List.mem_cons_self, rfl⟩
    exact append_mem_kstar first (ih fun other listed => all other (List.mem_cons_of_mem _ listed))

/-- What a keyword is spelled like is an identifier too. -/
theorem mem_identifier_of_literal {spelling : String} {kind : Kind} {char : Char} {word : List Char}
    (letter : Letter char) (member : char :: word ∈ (Rule.literal spelling kind).pattern) :
    char :: word ∈ Rule.identifier.pattern := by
  obtain ⟨listed, spelled⟩ := mem_literal.mp member
  have parts := (literal_word _ listed char (by simp [← spelled]) letter).2
  simp only [← spelled, List.tail_cons] at parts
  exact mem_oneOf_mul.mpr ⟨char, word, letter, mem_kstar_oneOf parts, rfl⟩

/-- The kind of a word is the one of its keyword, or the word is no literal and is an identifier. -/
theorem ofWord_cases (char : Char) (letter : Letter char) (word : List Char) :
    (∃ kind, (String.ofList (char :: word), kind) ∈ literals ∧ Kind.ofWord (String.ofList (char :: word)) = kind) ∨
      (Kind.ofWord (String.ofList (char :: word)) = .identifier (String.ofList (char :: word)) ∧
        ∀ spelling kind, char :: word ∉ (Rule.literal spelling kind).pattern) := by
  unfold Kind.ofWord
  cases found : Kind.keywords.lookup (String.ofList (char :: word)) with
  | some kind => 
    obtain ⟨_, _, split, -⟩ := List.lookup_eq_some_iff.mp found
    have listed : (String.ofList (char :: word), kind) ∈ Kind.keywords := by simp [split]
    exact .inl ⟨kind, literal_of_keyword _ listed, rfl⟩
  | none =>
    refine .inr ⟨rfl, fun spelling kind member => ?_⟩
    obtain ⟨listed, spelled⟩ := mem_literal.mp member
    obtain ⟨keyword, -⟩ := literal_word _ listed char (by simp [← spelled]) letter
    have absent := List.lookup_eq_none_iff.mp found _ keyword
    simp [spelled] at absent

/-- A word is matched as its keyword, or else as an identifier. -/
theorem munch_word {char : Char} (letter : Letter char) (text : List Char) :
    ∃ rule, Munch (char :: text) rule (char :: text.takeWhile isWordPart) ∧
      rule.meaning (char :: text.takeWhile isWordPart) =
        some (.token (.ofWord (String.ofList (char :: text.takeWhile isWordPart)))) := by
  obtain ⟨identifier, front, bound⟩ := longest_class isWordPart_iff letter text
  have longest : ∀ other : Rule, ∀ word ∈ other.pattern, word <+: char :: text →
      word.length ≤ (char :: text.takeWhile isWordPart).length := by
    intro other word member front
    rcases begins_letter letter (begins_of_front member front) with rfl | ⟨spelling, kind, rfl⟩
    · exact bound word member front
    · obtain ⟨first, behind, rfl, -⟩ := exists_cons member
      obtain ⟨rfl, -⟩ := List.cons_prefix_cons.mp front
      exact bound _ (mem_identifier_of_literal letter member) front
  rcases ofWord_cases char letter (text.takeWhile isWordPart) with ⟨kind, listed, isKind⟩ | ⟨isKind, noLiteral⟩
  · exact ⟨.literal _ kind, ⟨⟨listed, by simp⟩, front, longest, nofun⟩, by rw [isKind]; rfl⟩
  · exact ⟨.identifier, ⟨identifier, front, longest, fun _ => noLiteral⟩, by rw [isKind]; rfl⟩

/-! ### Quotes -/

theorem munch_string {text body rest : List Char} (longest : LongestRun stringElement text body)
    (whole : body ++ '"' :: rest = text) : Munch ('"' :: text) .stringLiteral ('"' :: (body ++ ['"'])) := by
  refine ⟨mem_stringLiteral.mpr ⟨body, longest.elements, rfl⟩, ⟨rest, by simp [← whole]⟩, ?_, nofun⟩
  intro other word member front
  rcases begins_doubleQuote (begins_of_front member front) with rfl | rfl
  · obtain ⟨inner, elements, rfl⟩ := mem_stringLiteral.mp member
    have inside : inner <+: text := (List.prefix_append _ _).trans (List.cons_prefix_cons.mp front).2
    have short := longest.longest inner elements inside
    simp only [List.length_cons, List.length_append]
    omega
  · obtain ⟨run, elements, rfl⟩ := mem_unterminatedString.mp member
    have short := longest.longest run elements (List.cons_prefix_cons.mp front).2
    simp only [List.length_cons, List.length_append]
    omega

theorem munch_unterminated {text body rest : List Char} (longest : LongestRun stringElement text body)
    (whole : body ++ rest = text) (unclosed : ∀ behind, rest ≠ '"' :: behind) :
    Munch ('"' :: text) .unterminatedString ('"' :: body) := by
  refine ⟨mem_unterminatedString.mpr ⟨body, longest.elements, rfl⟩, ⟨rest, by simp [← whole]⟩, ?_, nofun⟩
  intro other word member front
  rcases begins_doubleQuote (begins_of_front member front) with rfl | rfl
  · obtain ⟨inner, elements, rfl⟩ := mem_stringLiteral.mp member
    obtain ⟨behind, closed⟩ := (List.cons_prefix_cons.mp front).2
    obtain rfl := longestRun_unique (quoted_stringElement.longestRun elements ⟨behind, closed⟩) longest
    rw [← whole, List.append_assoc] at closed
    exact absurd (List.append_cancel_left closed).symm (unclosed behind)
  · obtain ⟨run, elements, rfl⟩ := mem_unterminatedString.mp member
    exact longest.cons_length_le '"' elements front

theorem munch_character {text body rest : List Char} (longest : LongestRun characterElement text body)
    (whole : body ++ '\'' :: rest = text) : Munch ('\'' :: text) .characterLiteral ('\'' :: (body ++ ['\''])) := by
  refine ⟨mem_characterLiteral.mpr ⟨body, longest.elements, rfl⟩, ⟨rest, by simp [← whole]⟩, ?_, nofun⟩
  intro other word member front
  rcases begins_singleQuote (begins_of_front member front) with rfl | rfl
  · obtain ⟨inner, elements, rfl⟩ := mem_characterLiteral.mp member
    have inside : inner <+: text := (List.prefix_append _ _).trans (List.cons_prefix_cons.mp front).2
    have short := longest.longest inner elements inside
    simp only [List.length_cons, List.length_append]
    omega
  · obtain rfl := mem_quote.mp member
    simp

theorem munch_quote {text body rest : List Char} (longest : LongestRun characterElement text body)
    (whole : body ++ rest = text) (unclosed : ∀ behind, rest ≠ '\'' :: behind) :
    Munch ('\'' :: text) (.literal "'" .quote) ['\''] := by
  refine ⟨mem_quote.mpr rfl, ⟨text, rfl⟩, ?_, nofun⟩
  intro other word member front
  rcases begins_singleQuote (begins_of_front member front) with rfl | rfl
  · obtain ⟨inner, elements, rfl⟩ := mem_characterLiteral.mp member
    obtain ⟨behind, closed⟩ := (List.cons_prefix_cons.mp front).2
    obtain rfl := longestRun_unique (quoted_characterElement.longestRun elements ⟨behind, closed⟩) longest
    rw [← whole, List.append_assoc] at closed
    exact absurd (List.append_cancel_left closed).symm (unclosed behind)
  · rw [mem_quote.mp member]

/-! ### Slashes -/

theorem munch_lineComment (text : List Char) :
    Munch ('/' :: '/' :: text) .lineComment ('/' :: '/' :: text.takeWhile (· ≠ '\n')) := by
  have run := longestRun_takeWhile (· ≠ '\n') (· ≠ '\n') (fun char => decide_eq_true_iff) text
  refine ⟨mem_lineComment.mpr ⟨_, run.elements, rfl⟩, ?_, ?_, nofun⟩
  · exact List.cons_prefix_cons.mpr ⟨rfl, List.cons_prefix_cons.mpr ⟨rfl, run.front⟩⟩
  · intro other word member front
    rcases begins_slash (begins_of_front member front) with rfl | rfl | rfl
    · obtain ⟨behind, elements, rfl⟩ := mem_lineComment.mp member
      have short := run.cons_length_le '/' elements (List.cons_prefix_cons.mp front).2
      exact Nat.succ_le_succ short
    · rw [mem_commentOpening.mp member]
      simp
    · rw [mem_slash.mp member]
      simp

theorem munch_commentOpening (text : List Char) : Munch ('/' :: '*' :: text) .commentOpening ['/', '*'] := by
  refine ⟨mem_commentOpening.mpr rfl, ⟨text, rfl⟩, ?_, nofun⟩
  intro other word member front
  rcases begins_slash (begins_of_front member front) with rfl | rfl | rfl
  · obtain ⟨run, -, rfl⟩ := mem_lineComment.mp member
    simp at front
  · rw [mem_commentOpening.mp member]
  · rw [mem_slash.mp member]
    simp

theorem munch_slash {text : List Char} (notLine : ∀ behind, text ≠ '/' :: behind)
    (notBlock : ∀ behind, text ≠ '*' :: behind) : Munch ('/' :: text) (.literal "/" .slash) ['/'] := by
  refine ⟨mem_slash.mpr rfl, ⟨text, rfl⟩, ?_, nofun⟩
  intro other word member front
  rcases begins_slash (begins_of_front member front) with rfl | rfl | rfl
  · obtain ⟨run, -, rfl⟩ := mem_lineComment.mp member
    obtain ⟨rest, rfl⟩ := (List.cons_prefix_cons.mp front).2
    exact absurd rfl (notLine (run ++ rest))
  · obtain rfl := mem_commentOpening.mp member
    obtain ⟨rest, rfl⟩ := (List.cons_prefix_cons.mp front).2
    exact absurd rfl (notBlock rest)
  · rw [mem_slash.mp member]

/-- A block comment is closed by the first closing mark. -/
theorem commentBody_eq_some {text body rest : List Char} (closed : commentBody text = some (body, rest)) :
    ∃ inside, body = inside ++ ['*', '/'] ∧ ¬ ['*', '/'] <:+: inside ++ ['*'] := by
  fun_induction commentBody text generalizing body rest with
  | case1 => cases closed
  | case2 text =>
    obtain ⟨rfl, rfl⟩ : ['*', '/'] = body ∧ text = rest := by simpa using closed
    exact ⟨[], rfl, by decide⟩
  | case3 char text open_ ih =>
    obtain ⟨⟨inner, behind⟩, found, equal⟩ := Option.map_eq_some_iff.mp closed
    obtain ⟨rfl, rfl⟩ : char :: inner = body ∧ behind = rest := by simpa using equal
    obtain ⟨inside, rfl, first⟩ := ih found
    refine ⟨char :: inside, rfl, fun infixed => ?_⟩
    rcases List.infix_cons_iff.mp infixed with front | later
    · obtain ⟨rfl, atFront⟩ := List.cons_prefix_cons.mp front
      have whole := commentBody_append found
      cases inside with
      | nil => simp at atFront
      | cons next inside =>
        obtain ⟨rfl, -⟩ := List.cons_prefix_cons.mp atFront
        exact open_ _ rfl (by rw [← whole]; rfl)
    · exact first later

theorem commentBody_eq_none {text : List Char} (endless : commentBody text = none) :
    ¬ ['*', '/'] <:+: text := by
  fun_induction commentBody text with
  | case1 => decide
  | case2 text => cases endless
  | case3 char text open_ ih =>
    intro infixed
    rcases List.infix_cons_iff.mp infixed with front | later
    · obtain ⟨rfl, rest, rfl⟩ := List.cons_prefix_cons.mp front
      exact open_ rest rfl rfl
    · exact ih (Option.map_eq_none_iff.mp endless) later

/-! ### The first piece -/

/-- What a piece of some form means. -/
def Match.ofForm : Form → Match
  | .skipped _ => .skip
  | .token kind => .token kind
  | .malformed fault => .failure fault.message

/-- Away from quotes and number signs a match means what its rule means. -/
theorem reference_plain {char : Char} {text lexeme behind : List Char} {rule : Rule} {meant : Match}
    (munch : Munch (char :: text) rule lexeme) (whole : lexeme ++ behind = char :: text)
    (meaning : rule.meaning lexeme = some meant) (notQuote : char ≠ '\'') (notSign : char ≠ '#') :
    Reference (char :: text) meant lexeme behind := by
  have begins := begins_of_front munch.matched munch.front
  refine ⟨rule, lexeme, behind, munch, whole, .plain meaning ?_ ?_⟩
  · rintro ⟨rfl, -⟩
    exact notQuote (Option.some.inj begins.2).symm
  · rintro ⟨rfl, -⟩
    exact notSign begins

theorem reference_directive (text : List Char) :
    Reference ('#' :: text) .skip ('#' :: (directiveBody text).1) (directiveBody text).2 := by
  have whole := directiveBody_append text
  obtain ⟨run, longest, ⟨isRun, notLone⟩ | ⟨isRun, atEnd⟩⟩ := directiveBody_run text
  · rw [isRun] at whole ⊢
    refine ⟨.directive, '#' :: run, _, munch_directive longest, congrArg ('#' :: ·) whole, ?_⟩
    exact .plain rfl (fun stray => nomatch stray.1) fun swallows => notLone swallows.2
  · rw [isRun, atEnd] at whole ⊢
    refine ⟨.directive, '#' :: run, ['\\'], munch_directive longest, by simpa using whole, ?_⟩
    exact .swallows ⟨rfl, rfl⟩

theorem reference_string (text : List Char) :
    Reference ('"' :: text) (.ofForm (Piece.cutString text).1.form) (Piece.cutString text).1.text
      (Piece.cutString text).2 := by
  have longest := longestRun_stringBody text
  have whole := stringBody_append text
  unfold Piece.cutString
  split
  next body rest split =>
    rw [split] at longest whole
    exact reference_plain (munch_string longest whole) (by simp [← whole]) rfl (by decide) (by decide)
  next body rest unclosed split =>
    rw [split] at longest whole
    have munch := munch_unterminated longest whole unclosed
    exact reference_plain munch (congrArg ('"' :: ·) whole) rfl (by decide) (by decide)

theorem reference_quote (text : List Char) :
    Reference ('\'' :: text) (.ofForm (Piece.cutQuote text).1.form) (Piece.cutQuote text).1.text
      (Piece.cutQuote text).2 := by
  have longest := longestRun_characterBody text
  have whole := characterBody_append text
  unfold Piece.cutQuote
  split
  next body rest split =>
    rw [split] at longest whole
    refine ⟨.characterLiteral, _, rest, munch_character longest whole, by simp [← whole], ?_⟩
    exact .plain rfl (fun stray => nomatch stray.1) fun swallows => nomatch swallows.1
  next rest unclosed split =>
    rw [split] at longest whole
    refine ⟨_, _, rest, munch_quote longest whole unclosed, by simp [← whole], ?_⟩
    refine .plain rfl ?_ fun swallows => nomatch swallows.1
    -- An element behind the quote would be a run there, and the longest run is empty.
    rintro ⟨-, element, member, front⟩
    have run : element ∈ characterElement∗ := by simpa using append_mem_kstar member (Language.nil_mem_kstar _)
    obtain rfl : rest = text := whole
    obtain rfl : element = [] := List.length_eq_zero_iff.mp (Nat.le_zero.mp (longest.longest element run front))
    rcases mem_characterElement.mp member with ⟨char, -, spelled⟩ | ⟨char, -, spelled⟩ <;> cases spelled
  next body rest unclosed nonempty split =>
    rw [split] at longest whole
    refine ⟨_, _, text, munch_quote longest whole unclosed, rfl, ?_⟩
    refine .stray ⟨rfl, ?_⟩ longest whole
    rcases kstar_cases longest.elements with rfl | ⟨one, member, run, -, rfl⟩
    · exact absurd rfl nonempty
    · exact ⟨one, member, (List.prefix_append one run).trans longest.front⟩

theorem reference_slash (text : List Char) :
    Reference ('/' :: text) (.ofForm (Piece.cutSlash text).1.form) (Piece.cutSlash text).1.text
      (Piece.cutSlash text).2 := by
  unfold Piece.cutSlash
  split
  next text =>
    refine reference_plain (munch_lineComment text) ?_ rfl (by decide) (by decide)
    simp [List.takeWhile_append_dropWhile]
  next text =>
    split
    next body rest closed =>
      obtain ⟨inside, rfl, first⟩ := commentBody_eq_some closed
      refine ⟨_, _, text, munch_commentOpening text, rfl, ?_⟩
      exact .comment rfl (commentBody_append closed) first
    next endless =>
      exact ⟨_, _, text, munch_commentOpening text, rfl, .unterminatedComment rfl (commentBody_eq_none endless)⟩
  next text notLine notBlock =>
    exact reference_plain (munch_slash notLine notBlock) rfl rfl (by decide) (by decide)

/-! Which function cuts the first piece is decided by the class of the first character. -/

theorem cut_of_blank {char : Char} (blank : Blank char) (text : List Char) :
    Piece.cut char text = Piece.cutBlanks char text := by
  simp [Piece.cut, (isBlank_iff char).mpr blank]

theorem cut_of_letter {char : Char} (letter : Letter char) (text : List Char) :
    Piece.cut char text = Piece.cutWord char text := by
  have notBlank := mt (isBlank_iff char).mp (not_blank_of_letter letter)
  simp [Piece.cut, notBlank, (isWordStart_iff char).mpr letter]

theorem cut_of_digit {char : Char} (digit : Digit char) (text : List Char) :
    Piece.cut char text = Piece.cutNumber char text := by
  have notBlank := mt (isBlank_iff char).mp (not_blank_of_digit digit)
  have notLetter := mt (isWordStart_iff char).mp fun letter => not_digit_of_letter letter digit
  simp [Piece.cut, notBlank, notLetter, (isDigit_iff char).mpr digit]

theorem cut_of_single {char : Char} (notBlank : ¬ Blank char) (notLetter : ¬ Letter char) (notDigit : ¬ Digit char)
    (unmarked : char ∉ ['#', '"', '\'', '/']) (text : List Char) :
    Piece.cut char text = (⟨.token (.ofCharacter char), [char]⟩, text) := by
  simp only [List.mem_cons, List.not_mem_nil, or_false, not_or] at unmarked
  obtain ⟨notSign, notDouble, notSingle, notSlash⟩ := unmarked
  simp [Piece.cut, mt (isBlank_iff char).mp notBlank, mt (isWordStart_iff char).mp notLetter,
    mt (isDigit_iff char).mp notDigit, notSign, notDouble, notSingle, notSlash]

theorem ofCharacter_of_not_reserved {char : Char} (other : ¬ Reserved char) :
    Kind.ofCharacter char = .punctuation := by
  unfold Kind.ofCharacter
  split
  all_goals first
    | rfl
    | exact absurd (by decide) other

/-- The first piece of a text is what the reference says stands there. -/
theorem reference_cut (char : Char) (text : List Char) :
    Reference (char :: text) (.ofForm (Piece.cut char text).1.form) (Piece.cut char text).1.text
      (Piece.cut char text).2 := by
  have whole := Piece.cut_append char text
  rcases char_cases char with blank | letter | digit | rfl | rfl | rfl | rfl | delimiter | other
  · rw [cut_of_blank blank] at whole ⊢
    refine reference_plain (munch_blanks blank text) whole rfl ?_ ?_
    · rintro rfl
      exact absurd blank (by decide)
    · rintro rfl
      exact absurd blank (by decide)
  · rw [cut_of_letter letter] at whole ⊢
    obtain ⟨rule, munch, meaning⟩ := munch_word letter text
    refine reference_plain munch whole meaning ?_ ?_
    · rintro rfl
      exact absurd letter (by decide)
    · rintro rfl
      exact absurd letter (by decide)
  · rw [cut_of_digit digit] at whole ⊢
    refine reference_plain (munch_number digit text) whole rfl ?_ ?_
    · rintro rfl
      exact absurd digit (by decide)
    · rintro rfl
      exact absurd digit (by decide)
  · exact reference_directive text
  · exact reference_string text
  · exact reference_quote text
  · exact reference_slash text
  · obtain ⟨notBlank, notLetter, notDigit, -⟩ := delimiter_class char delimiter
    have unmarked := delimiter_mark char delimiter
    rw [cut_of_single notBlank notLetter notDigit unmarked]
    refine reference_plain (munch_delimiter delimiter text) rfl rfl ?_ ?_
    · rintro rfl
      exact absurd unmarked (by decide)
    · rintro rfl
      exact absurd unmarked (by decide)
  · have marked : ∀ mark ∈ ['#', '"', '\'', '/'], Reserved mark := List.all_iff_forall_prop.mp (by decide)
    have unmarked : char ∉ ['#', '"', '\'', '/'] := fun listed => other (marked char listed)
    have notDigit : ¬ Digit char := fun digit => other (.inr (.inl digit))
    have notBlank : ¬ Blank char := fun blank => other (.inr (.inr (.inl blank)))
    rw [cut_of_single notBlank (fun letter => other (.inl letter)) notDigit unmarked,
      ofCharacter_of_not_reserved other]
    refine reference_plain (munch_punctuation other text) rfl rfl ?_ ?_
    · rintro rfl
      exact absurd unmarked (by decide)
    · rintro rfl
      exact absurd unmarked (by decide)

theorem not_reference_nil (meant : Match) (taken rest : List Char) : ¬ Reference [] meant taken rest := by
  rintro ⟨rule, lexeme, behind, munch, -⟩
  obtain ⟨char, tail, rfl, -⟩ := exists_cons munch.matched
  simpa using munch.front

end Token

end ActorSurface
