import ActorSurface.Proofs.Token.Runs
import Mathlib.Data.Bool.AllAny

/-!
Which rules can match at a place is seen from the character there (`Rule.Begins`, `front_cons`), and that
leaves few rules for each character. Two rules never match the same word, but for a keyword that is spelled
like an identifier (`pattern_disjoint`), so the longest match at a place is one word of one rule
(`Munch.unique`), and the reference gives one answer (`Reference.unique`).
-/

namespace ActorSurface

namespace Token

open scoped Computability

open Pattern

/-! ### First characters -/

/-- What the words of a rule begin with. -/
def Rule.Begins (char : Char) : Rule → Prop
  | .blanks => Blank char
  | .lineComment => char = '/'
  | .directive => char = '#'
  | .literal spelling kind => (spelling, kind) ∈ literals ∧ spelling.toList.head? = some char
  | .identifier => Letter char
  | .number => Digit char
  | .stringLiteral => char = '"'
  | .unterminatedString => char = '"'
  | .characterLiteral => char = '\''
  | .commentOpening => char = '/'
  | .punctuation => ¬ Reserved char

theorem mem_literal {spelling : String} {kind : Kind} {word : List Char} :
    word ∈ (Rule.literal spelling kind).pattern ↔ (spelling, kind) ∈ literals ∧ word = spelling.toList := Iff.rfl

/-- The words of a run between two marks are the mark, the run and the mark. -/
theorem mem_enclosed {text : String} {mark : Char} (spelled : text.toList = [mark]) {element : Language Char}
    {word : List Char} :
    word ∈ exactly text * element∗ * exactly text ↔ ∃ inner ∈ element∗, word = mark :: (inner ++ [mark]) := by
  rw [mul_assoc, mem_exactly_mul, spelled]
  constructor
  · rintro ⟨rest, closed, rfl⟩
    obtain ⟨inner, elements, rfl⟩ := mem_mul_exactly.mp closed
    exact ⟨inner, elements, by rw [spelled, List.singleton_append]⟩
  · rintro ⟨inner, elements, rfl⟩
    exact ⟨inner ++ [mark], mem_mul_exactly.mpr ⟨inner, elements, congrArg (inner ++ ·) spelled.symm⟩, rfl⟩

theorem mem_stringLiteral {word : List Char} :
    word ∈ Rule.stringLiteral.pattern ↔ ∃ inner ∈ stringElement∗, word = '"' :: (inner ++ ['"']) :=
  mem_enclosed rfl

theorem mem_unterminatedString {word : List Char} :
    word ∈ Rule.unterminatedString.pattern ↔ ∃ inner ∈ stringElement∗, word = '"' :: inner :=
  mem_exactly_mul

theorem mem_characterLiteral {word : List Char} :
    word ∈ Rule.characterLiteral.pattern ↔ ∃ inner ∈ characterElement∗, word = '\'' :: (inner ++ ['\'']) :=
  mem_enclosed rfl

theorem mem_directive {word : List Char} :
    word ∈ Rule.directive.pattern ↔ ∃ run ∈ directiveElement∗, word = '#' :: run :=
  mem_exactly_mul

theorem mem_lineComment {word : List Char} :
    word ∈ Rule.lineComment.pattern ↔
      ∃ run ∈ (oneOf fun char => char ≠ '\n')∗, word = '/' :: '/' :: run :=
  mem_exactly_mul

theorem mem_commentOpening {word : List Char} : word ∈ Rule.commentOpening.pattern ↔ word = ['/', '*'] :=
  Iff.rfl

theorem literal_ne_nil : ∀ entry ∈ literals, entry.1.toList ≠ [] := by decide

/-- A word of a rule begins with a character of that rule. -/
theorem exists_cons {rule : Rule} {word : List Char} (member : word ∈ rule.pattern) :
    ∃ char behind, word = char :: behind ∧ rule.Begins char := by
  cases rule with
  | blanks =>
    obtain ⟨char, rest, blank, -, rfl⟩ := mem_oneOf_mul.mp member
    exact ⟨char, rest, rfl, blank⟩
  | lineComment =>
    obtain ⟨run, -, rfl⟩ := mem_lineComment.mp member
    exact ⟨'/', '/' :: run, rfl, rfl⟩
  | directive =>
    obtain ⟨run, -, rfl⟩ := mem_directive.mp member
    exact ⟨'#', run, rfl, rfl⟩
  | literal spelling kind =>
    obtain ⟨listed, rfl⟩ := mem_literal.mp member
    obtain ⟨char, behind, spelled⟩ := List.exists_cons_of_ne_nil (literal_ne_nil _ listed)
    exact ⟨char, behind, spelled, listed, congrArg List.head? spelled⟩
  | identifier =>
    obtain ⟨char, rest, letter, -, rfl⟩ := mem_oneOf_mul.mp member
    exact ⟨char, rest, rfl, letter⟩
  | number =>
    obtain ⟨char, rest, digit, -, rfl⟩ := mem_oneOf_mul.mp member
    exact ⟨char, rest, rfl, digit⟩
  | stringLiteral =>
    obtain ⟨inner, -, rfl⟩ := mem_stringLiteral.mp member
    exact ⟨'"', inner ++ ['"'], rfl, rfl⟩
  | unterminatedString =>
    obtain ⟨inner, -, rfl⟩ := mem_unterminatedString.mp member
    exact ⟨'"', inner, rfl, rfl⟩
  | characterLiteral =>
    obtain ⟨inner, -, rfl⟩ := mem_characterLiteral.mp member
    exact ⟨'\'', inner ++ ['\''], rfl, rfl⟩
  | commentOpening => exact ⟨'/', ['*'], mem_commentOpening.mp member, rfl⟩
  | punctuation =>
    obtain ⟨char, other, rfl⟩ := mem_oneOf.mp member
    exact ⟨char, [], rfl, other⟩

/-- A rule that matches at the front of a text has the first character of the text among its own. -/
theorem begins_of_front {rule : Rule} {word text : List Char} {char : Char} (member : word ∈ rule.pattern)
    (front : word <+: char :: text) : rule.Begins char := by
  obtain ⟨first, behind, rfl, begins⟩ := exists_cons member
  obtain ⟨rfl, -⟩ := List.cons_prefix_cons.mp front
  exact begins

/-! ### The rules of a character -/

/-- What holds of the first character of a spelling is seen by going through the spellings, not the characters. -/
theorem literal_head {holds : String × Kind → Char → Prop} [∀ entry, DecidablePred (holds entry)]
    (checked : literals.all fun entry => entry.1.toList.head?.all fun char => holds entry char) :
    ∀ entry ∈ literals, ∀ char ∈ entry.1.toList.head?, holds entry char := by
  intro entry listed char first
  have here := List.all_eq_true.mp checked entry listed
  exact of_decide_eq_true ((Option.all_eq_true _ _).mp here char first)

theorem literal_not_blank : ∀ entry ∈ literals, ∀ char ∈ entry.1.toList.head?, ¬ Blank char :=
  literal_head (by decide)

theorem literal_not_digit : ∀ entry ∈ literals, ∀ char ∈ entry.1.toList.head?, ¬ Digit char :=
  literal_head (by decide)

theorem literal_reserved : ∀ entry ∈ literals, ∀ char ∈ entry.1.toList.head?, Reserved char :=
  literal_head (by decide)

theorem literal_head_ne_numberSign : ∀ entry ∈ literals, entry.1.toList.head? ≠ some '#' := by decide

theorem literal_head_ne_doubleQuote : ∀ entry ∈ literals, entry.1.toList.head? ≠ some '"' := by decide

theorem literal_slash : ∀ entry ∈ literals, '/' ∈ entry.1.toList.head? → entry = ("/", .slash) := by decide

theorem literal_quote : ∀ entry ∈ literals, '\'' ∈ entry.1.toList.head? → entry = ("'", .quote) := by decide

theorem not_blank_of_letter {char : Char} (letter : Letter char) : ¬ Blank char := by
  rintro (rfl | rfl | rfl | rfl | rfl) <;> revert letter <;> decide

theorem not_digit_of_letter {char : Char} (letter : Letter char) : ¬ Digit char := by
  unfold Letter Digit Between at *
  simp only [Char.le_def, UInt32.le_iff_toNat_le, Char.ext_iff, UInt32.toNat_inj.symm] at *
  simp at *
  omega

theorem not_blank_of_digit {char : Char} (digit : Digit char) : ¬ Blank char := by
  rintro (rfl | rfl | rfl | rfl | rfl) <;> revert digit <;> decide

/-- The delimiters that no other rule's words begin with. -/
def delimiters : List Char :=
  ['\x7b', '\x7d', '(', ')', '<', '>', ';']

theorem begins_blank {rule : Rule} {char : Char} (blank : Blank char) (begins : rule.Begins char) :
    rule = .blanks := by
  cases rule with
  | blanks => rfl
  | literal spelling kind => exact absurd blank (literal_not_blank _ begins.1 char begins.2)
  | identifier => exact absurd blank (not_blank_of_letter begins)
  | number => exact absurd blank (not_blank_of_digit begins)
  | punctuation => exact absurd (.inr (.inr (.inl blank))) begins
  | _ => exact absurd blank (by rw [begins]; decide)

theorem begins_letter {rule : Rule} {char : Char} (letter : Letter char) (begins : rule.Begins char) :
    rule = .identifier ∨ ∃ spelling kind, rule = .literal spelling kind := by
  cases rule with
  | identifier => exact .inl rfl
  | literal spelling kind => exact .inr ⟨spelling, kind, rfl⟩
  | blanks => exact absurd begins (not_blank_of_letter letter)
  | number => exact absurd begins (not_digit_of_letter letter)
  | punctuation => exact absurd (.inl letter) begins
  | _ => exact absurd letter (by rw [begins]; decide)

theorem begins_digit {rule : Rule} {char : Char} (digit : Digit char) (begins : rule.Begins char) :
    rule = .number := by
  cases rule with
  | number => rfl
  | blanks => exact absurd begins (not_blank_of_digit digit)
  | literal spelling kind => exact absurd digit (literal_not_digit _ begins.1 char begins.2)
  | identifier => exact absurd digit (not_digit_of_letter begins)
  | punctuation => exact absurd (.inr (.inl digit)) begins
  | _ => exact absurd digit (by rw [begins]; decide)

theorem begins_other {rule : Rule} {char : Char} (other : ¬ Reserved char) (begins : rule.Begins char) :
    rule = .punctuation := by
  cases rule with
  | punctuation => rfl
  | blanks => exact absurd (.inr (.inr (.inl begins))) other
  | literal spelling kind => exact absurd (literal_reserved _ begins.1 char begins.2) other
  | identifier => exact absurd (.inl begins) other
  | number => exact absurd (.inr (.inl begins)) other
  | _ => exact absurd (by rw [begins]; decide) other

theorem begins_numberSign {rule : Rule} (begins : rule.Begins '#') : rule = .directive := by
  cases rule with
  | directive => rfl
  | literal spelling kind => exact absurd begins.2 (literal_head_ne_numberSign _ begins.1)
  | _ => exact absurd begins (by unfold Rule.Begins; decide)

theorem begins_doubleQuote {rule : Rule} (begins : rule.Begins '"') :
    rule = .stringLiteral ∨ rule = .unterminatedString := by
  cases rule with
  | stringLiteral => exact .inl rfl
  | unterminatedString => exact .inr rfl
  | literal spelling kind => exact absurd begins.2 (literal_head_ne_doubleQuote _ begins.1)
  | _ => exact absurd begins (by unfold Rule.Begins; decide)

theorem begins_singleQuote {rule : Rule} (begins : rule.Begins '\'') :
    rule = .characterLiteral ∨ rule = .literal "'" .quote := by
  cases rule with
  | characterLiteral => exact .inl rfl
  | literal spelling kind =>
    obtain ⟨rfl, rfl⟩ := Prod.ext_iff.mp (literal_quote _ begins.1 begins.2)
    exact .inr rfl
  | _ => exact absurd begins (by unfold Rule.Begins; decide)

theorem begins_slash {rule : Rule} (begins : rule.Begins '/') :
    rule = .lineComment ∨ rule = .commentOpening ∨ rule = .literal "/" .slash := by
  cases rule with
  | lineComment => exact .inl rfl
  | commentOpening => exact .inr (.inl rfl)
  | literal spelling kind =>
    obtain ⟨rfl, rfl⟩ := Prod.ext_iff.mp (literal_slash _ begins.1 begins.2)
    exact .inr (.inr rfl)
  | _ => exact absurd begins (by unfold Rule.Begins; decide)

theorem delimiter_class :
    ∀ char ∈ delimiters, ¬ Blank char ∧ ¬ Letter char ∧ ¬ Digit char ∧ Reserved char :=
  List.all_iff_forall_prop.mp (by decide)

theorem delimiter_mark : ∀ char ∈ delimiters, char ∉ ['#', '"', '\'', '/'] :=
  List.all_iff_forall_prop.mp (by decide)

theorem begins_delimiter {rule : Rule} {char : Char} (delimiter : char ∈ delimiters) (begins : rule.Begins char) :
    ∃ spelling kind, rule = .literal spelling kind := by
  obtain ⟨notBlank, notLetter, notDigit, reserved⟩ := delimiter_class char delimiter
  cases rule with
  | literal spelling kind => exact ⟨spelling, kind, rfl⟩
  | blanks => exact absurd begins notBlank
  | identifier => exact absurd begins notLetter
  | number => exact absurd begins notDigit
  | punctuation => exact absurd reserved begins
  | _ => exact absurd (by rw [begins]; decide) (delimiter_mark char delimiter)

/-! ### Disjointness -/

/-- A run that its mark closes is the longest run there. -/
theorem Quoted.longestRun {mark : Char} {element : Language Char} (quoted : Quoted mark element)
    {inner text : List Char} (elements : inner ∈ element∗) (front : inner ++ [mark] <+: text) :
    LongestRun element text inner := by
  obtain ⟨words, rfl, members⟩ := Language.mem_kstar.mp elements
  clear elements
  induction words generalizing text with
  | nil =>
    obtain ⟨rest, rfl⟩ := front
    exact .nil fun one member =>
      quoted.not_front (.inl (.inl rfl)) (fun _ _ backslash _ => quoted.notEscape backslash) member
  | cons word words ih =>
    have here : word ∈ element := members word List.mem_cons_self
    obtain ⟨rest, rfl⟩ := front
    simp only [List.flatten_cons, List.append_assoc]
    have behind : LongestRun element (words.flatten ++ ([mark] ++ rest)) words.flatten :=
      ih (fun one listed => members one (List.mem_cons_of_mem _ listed)) ⟨rest, List.append_assoc _ _ _⟩
    refine behind.cons word here fun other member atFront => .inl ?_
    exact quoted.alike member here atFront (List.prefix_append word _)

/-- No string that is closed is matched as one that is not. -/
theorem not_unterminated_of_string {word : List Char} (closed : word ∈ Rule.stringLiteral.pattern) :
    word ∉ Rule.unterminatedString.pattern := by
  intro unterminated
  obtain ⟨inner, elements, rfl⟩ := mem_stringLiteral.mp closed
  obtain ⟨run, others, same⟩ := mem_unterminatedString.mp unterminated
  obtain rfl : inner ++ ['"'] = run := by simpa using same
  have longest := quoted_stringElement.longestRun elements (List.prefix_refl _)
  have short := longest.longest _ others (List.prefix_refl _)
  simp only [List.length_append, List.length_singleton] at short
  omega

theorem literal_functional :
    ∀ entry ∈ literals, ∀ other ∈ literals, entry.1 = other.1 → entry = other := by decide

theorem literal_eq {spelling other : String} {kind second : Kind} {word : List Char}
    (member : word ∈ (Rule.literal spelling kind).pattern) (also : word ∈ (Rule.literal other second).pattern) :
    Rule.literal spelling kind = Rule.literal other second := by
  obtain ⟨listed, rfl⟩ := mem_literal.mp member
  obtain ⟨alsoListed, same⟩ := mem_literal.mp also
  obtain ⟨rfl, rfl⟩ := Prod.ext_iff.mp (literal_functional _ listed _ alsoListed (String.toList_inj.mp same))
  rfl

theorem mem_quote {word : List Char} : word ∈ (Rule.literal "'" .quote).pattern ↔ word = ['\''] := by
  rw [mem_literal]
  exact and_iff_right (by decide)

theorem mem_slash {word : List Char} : word ∈ (Rule.literal "/" .slash).pattern ↔ word = ['/'] := by
  rw [mem_literal]
  exact and_iff_right (by decide)

/-- A word that begins with a single quote tells its rule. -/
theorem rule_of_singleQuote {rule : Rule} {behind : List Char} (member : '\'' :: behind ∈ rule.pattern) :
    rule = if behind = [] then .literal "'" .quote else .characterLiteral := by
  rcases begins_singleQuote (begins_of_front member (List.prefix_refl _)) with rfl | rfl
  · obtain ⟨inner, -, same⟩ := mem_characterLiteral.mp member
    obtain rfl : behind = inner ++ ['\''] := by simpa using same
    simp
  · obtain rfl : behind = [] := by simpa using mem_quote.mp member
    simp

/-- A word that begins with a slash tells its rule. -/
theorem rule_of_slash {rule : Rule} {behind : List Char} (member : '/' :: behind ∈ rule.pattern) :
    rule = if behind = [] then .literal "/" .slash else if behind = ['*'] then .commentOpening else .lineComment := by
  rcases begins_slash (begins_of_front member (List.prefix_refl _)) with rfl | rfl | rfl
  · obtain ⟨run, -, same⟩ := mem_lineComment.mp member
    obtain rfl : behind = '/' :: run := by simpa using same
    simp
  · obtain rfl : behind = ['*'] := by simpa using mem_commentOpening.mp member
    simp
  · obtain rfl : behind = [] := by simpa using mem_slash.mp member
    simp

/-- Every character begins words of one class. -/
theorem char_cases (char : Char) :
    Blank char ∨ Letter char ∨ Digit char ∨ char = '#' ∨ char = '"' ∨ char = '\'' ∨ char = '/' ∨
      char ∈ delimiters ∨ ¬ Reserved char := by
  unfold Reserved delimiters
  simp only [List.mem_cons, List.not_mem_nil]
  tauto

/-- Two rules that match the same word are one rule, but for a keyword and an identifier. -/
theorem pattern_disjoint {rule other : Rule} {word : List Char} (member : word ∈ rule.pattern)
    (also : word ∈ other.pattern) (plain : rule = .identifier → ∀ spelling kind, other ≠ .literal spelling kind)
    (otherPlain : other = .identifier → ∀ spelling kind, rule ≠ .literal spelling kind) : rule = other := by
  obtain ⟨char, behind, rfl, begins⟩ := exists_cons member
  have otherBegins := begins_of_front also (List.prefix_refl _)
  rcases char_cases char with blank | letter | digit | rfl | rfl | rfl | rfl | delimiter | unreserved
  · exact (begins_blank blank begins).trans (begins_blank blank otherBegins).symm
  · rcases begins_letter letter begins with rfl | ⟨spelling, kind, rfl⟩
    · rcases begins_letter letter otherBegins with rfl | ⟨spelling, kind, rfl⟩
      · rfl
      · exact absurd rfl (plain rfl spelling kind)
    · rcases begins_letter letter otherBegins with rfl | ⟨second, kind, rfl⟩
      · exact absurd rfl (otherPlain rfl spelling kind)
      · exact literal_eq member also
  · exact (begins_digit digit begins).trans (begins_digit digit otherBegins).symm
  · exact (begins_numberSign begins).trans (begins_numberSign otherBegins).symm
  · rcases begins_doubleQuote begins with rfl | rfl <;> rcases begins_doubleQuote otherBegins with rfl | rfl
    · rfl
    · exact absurd also (not_unterminated_of_string member)
    · exact absurd member (not_unterminated_of_string also)
    · rfl
  · exact (rule_of_singleQuote member).trans (rule_of_singleQuote also).symm
  · exact (rule_of_slash member).trans (rule_of_slash also).symm
  · obtain ⟨spelling, kind, rfl⟩ := begins_delimiter delimiter begins
    obtain ⟨second, kind, rfl⟩ := begins_delimiter delimiter otherBegins
    exact literal_eq member also
  · exact (begins_other unreserved begins).trans (begins_other unreserved otherBegins).symm

/-- There is one longest match at a place. -/
theorem Munch.unique {text : List Char} {rule other : Rule} {lexeme word : List Char}
    (first : Munch text rule lexeme) (second : Munch text other word) : rule = other ∧ lexeme = word := by
  have lengths : lexeme.length = word.length :=
    Nat.le_antisymm (second.longest rule lexeme first.matched first.front)
      (first.longest other word second.matched second.front)
  obtain rfl : lexeme = word :=
    (List.prefix_of_prefix_length_le first.front second.front lengths.le).eq_of_length lengths
  refine ⟨pattern_disjoint first.matched second.matched ?_ ?_, rfl⟩
  · rintro rfl spelling kind rfl
    exact first.preferred rfl spelling kind second.matched
  · rintro rfl spelling kind rfl
    exact second.preferred rfl spelling kind first.matched

/-! ### One answer -/

/-- The first closing mark stands at one place. -/
theorem closing_le {inside other rest behind : List Char}
    (same : inside ++ ['*', '/'] ++ rest = other ++ ['*', '/'] ++ behind)
    (first : ¬ ['*', '/'] <:+: other ++ ['*']) : other.length ≤ inside.length := by
  by_contra short
  have whole : inside ++ ['*', '/'] <+: other ++ ['*', '/'] ++ behind := ⟨rest, same⟩
  have marked : other ++ ['*'] <+: other ++ ['*', '/'] ++ behind := ⟨'/' :: behind, by simp⟩
  have front : inside ++ ['*', '/'] <+: other ++ ['*'] := by
    refine List.prefix_of_prefix_length_le whole marked ?_
    simp only [List.length_append, List.length_cons, List.length_nil]
    omega
  exact first ((List.suffix_append inside ['*', '/']).isInfix.trans front.isInfix)

theorem closing_unique {inside other rest behind : List Char}
    (same : inside ++ ['*', '/'] ++ rest = other ++ ['*', '/'] ++ behind)
    (first : ¬ ['*', '/'] <:+: inside ++ ['*']) (also : ¬ ['*', '/'] <:+: other ++ ['*']) :
    inside = other ∧ rest = behind := by
  have lengths : inside.length = other.length := Nat.le_antisymm (closing_le same.symm first) (closing_le same also)
  rw [List.append_assoc, List.append_assoc] at same
  obtain ⟨rfl, tails⟩ := List.append_inj same lengths
  exact ⟨rfl, by simpa using tails⟩

theorem Outcome.unique {rule : Rule} {lexeme behind : List Char} {meant other : Match}
    {taken otherTaken rest otherRest : List Char} (first : Outcome rule lexeme behind meant taken rest)
    (second : Outcome rule lexeme behind other otherTaken otherRest) :
    meant = other ∧ taken = otherTaken ∧ rest = otherRest := by
  cases first with
  | plain meaning notStray notSwallows =>
    cases second with
    | plain also _ _ => exact ⟨Option.some.inj (meaning.symm.trans also), rfl, rfl⟩
    | comment opening _ _ => subst opening; cases meaning
    | unterminatedComment opening _ => subst opening; cases meaning
    | stray stray _ _ => exact absurd stray notStray
    | swallows swallows => exact absurd swallows notSwallows
  | comment opening split ends =>
    subst opening
    cases second with
    | plain also _ _ => cases also
    | comment _ otherSplit otherEnds =>
      obtain ⟨rfl, rfl⟩ := closing_unique (split.trans otherSplit.symm) ends otherEnds
      exact ⟨rfl, rfl, rfl⟩
    | unterminatedComment _ endless => exact absurd ⟨_, _, split⟩ endless
    | stray stray _ _ => cases stray.1
    | swallows swallows => cases swallows.1
  | unterminatedComment opening endless =>
    subst opening
    cases second with
    | plain also _ _ => cases also
    | comment _ otherSplit _ => exact absurd ⟨_, _, otherSplit⟩ endless
    | unterminatedComment _ _ => exact ⟨rfl, rfl, rfl⟩
    | stray stray _ _ => cases stray.1
    | swallows swallows => cases swallows.1
  | stray stray run split =>
    cases second with
    | plain _ notStray _ => exact absurd stray notStray
    | comment opening _ _ => cases opening.symm.trans stray.1
    | unterminatedComment opening _ => cases opening.symm.trans stray.1
    | stray _ otherRun otherSplit =>
      obtain rfl := longestRun_unique run otherRun
      exact ⟨rfl, rfl, List.append_cancel_left (split.trans otherSplit.symm)⟩
    | swallows swallows => cases stray.1.symm.trans swallows.1
  | swallows swallows =>
    cases second with
    | plain _ _ notSwallows => exact absurd swallows notSwallows
    | comment opening _ _ => cases opening.symm.trans swallows.1
    | unterminatedComment opening _ => cases opening.symm.trans swallows.1
    | stray stray _ _ => cases stray.1.symm.trans swallows.1
    | swallows _ => exact ⟨rfl, rfl, rfl⟩

/-- The reference gives at most one answer. -/
theorem Reference.unique {text : List Char} {meant other : Match} {taken otherTaken rest otherRest : List Char}
    (first : Reference text meant taken rest) (second : Reference text other otherTaken otherRest) :
    meant = other ∧ taken = otherTaken ∧ rest = otherRest := by
  obtain ⟨rule, lexeme, behind, munch, whole, outcome⟩ := first
  obtain ⟨otherRule, word, otherBehind, otherMunch, otherWhole, otherOutcome⟩ := second
  obtain ⟨rfl, rfl⟩ := munch.unique otherMunch
  obtain rfl := List.append_cancel_left (whole.trans otherWhole.symm)
  exact outcome.unique otherOutcome

end Token

end ActorSurface
