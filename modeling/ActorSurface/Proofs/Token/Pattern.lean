import ActorSurface.Token.Kind
import Mathlib.Computability.Language

/-!
The patterns of the lexical grammar as languages, each written as the regular expression that gives it, and
the reference that chooses among them: the longest match at a place, a keyword before an identifier of the
same length (`Munch`). What a match means, and the three matches that take more or something else than
their pattern says, is `Outcome`; both together are `Reference`. None of this looks at how a text is cut.
-/

namespace ActorSurface

namespace Token

open scoped Computability

namespace Pattern

/-! ### Characters -/

/-- The words of one character of a class. -/
def oneOf (admits : Char → Prop) : Language Char :=
  {word | ∃ char, admits char ∧ word = [char]}

/-- The one word that a text spells. -/
def exactly (text : String) : Language Char :=
  {word | word = text.toList}

/-- The characters from one to another. -/
def Between (low high char : Char) : Prop :=
  low ≤ char ∧ char ≤ high

/-- Blanks: `[ \t\n\r\f]`. -/
def Blank (char : Char) : Prop :=
  char = ' ' ∨ char = '\t' ∨ char = '\n' ∨ char = '\r' ∨ char = '\x0c'

/-- Letters: `[a-zA-Z_]`. -/
def Letter (char : Char) : Prop :=
  Between 'a' 'z' char ∨ Between 'A' 'Z' char ∨ char = '_'

/-- Digits: `[0-9]`. -/
def Digit (char : Char) : Prop :=
  Between '0' '9' char

/-- The characters that begin some other token, with the tokens of one character. -/
def Reserved (char : Char) : Prop :=
  Letter char ∨ Digit char ∨ Blank char ∨ char ∈ ['\x7b', '\x7d', '(', ')', '<', '>', ';', '"', '\'', '/', '#']

instance (low high char : Char) : Decidable (Between low high char) :=
  inferInstanceAs (Decidable (_ ∧ _))

instance (char : Char) : Decidable (Blank char) :=
  inferInstanceAs (Decidable (_ ∨ _))

instance (char : Char) : Decidable (Letter char) :=
  inferInstanceAs (Decidable (_ ∨ _))

instance (char : Char) : Decidable (Digit char) :=
  inferInstanceAs (Decidable (Between _ _ _))

instance (char : Char) : Decidable (Reserved char) :=
  inferInstanceAs (Decidable (_ ∨ _))

/-! ### Elements -/

/-- One element of a string: `[^"\\\n]|\\(?:.|\n)`. -/
def stringElement : Language Char :=
  oneOf (fun char => char ≠ '"' ∧ char ≠ '\\' ∧ char ≠ '\n') +
    exactly "\\" * (oneOf (fun char => char ≠ '\n') + exactly "\n")

/-- One element of a character literal: `[^'\\\n]|\\.`. -/
def characterElement : Language Char :=
  oneOf (fun char => char ≠ '\'' ∧ char ≠ '\\' ∧ char ≠ '\n') + exactly "\\" * oneOf (fun char => char ≠ '\n')

/-- One element of a directive: `[^\\\n]|\\\r?\n|\\[^\n]`. -/
def directiveElement : Language Char :=
  oneOf (fun char => char ≠ '\\' ∧ char ≠ '\n') + exactly "\\" * (1 + exactly "\r") * exactly "\n" +
    exactly "\\" * oneOf (fun char => char ≠ '\n')

end Pattern

/-! ### Rules -/

open Pattern

/-- The tokens that are spelled in one way only. -/
def literals : List (String × Kind) :=
  [("ACTOR", .actor), ("wait", .wait), ("waitNext", .waitNext), ("UNCANCELLABLE", .uncancellable),
    ("Future", .future), ("void", .void), ("static", .static), ("template", .template),
    ("\x7b", .openBrace), ("\x7d", .closeBrace), ("(", .openParen), (")", .closeParen), ("<", .less),
    (">", .greater), (";", .semicolon), ("/", .slash), ("'", .quote)]

/-- The rules of the lexical grammar. -/
inductive Rule where
  | blanks
  | lineComment
  | directive
  | literal (spelling : String) (kind : Kind)
  | identifier
  | number
  | stringLiteral
  | unterminatedString
  | characterLiteral
  | commentOpening
  | punctuation
  deriving DecidableEq, Repr

/-- The words that a rule matches. -/
def Rule.pattern : Rule → Language Char
  | .blanks => oneOf Blank * (oneOf Blank)∗
  | .lineComment => exactly "//" * (oneOf fun char => char ≠ '\n')∗
  | .directive => exactly "#" * directiveElement∗
  | .literal spelling kind => {word | (spelling, kind) ∈ literals ∧ word = spelling.toList}
  | .identifier => oneOf Letter * (oneOf fun char => Letter char ∨ Digit char)∗
  | .number => oneOf Digit * (oneOf fun char => Digit char ∨ Letter char ∨ char = '.' ∨ char = '\'')∗
  | .stringLiteral => exactly "\"" * stringElement∗ * exactly "\""
  | .unterminatedString => exactly "\"" * stringElement∗
  | .characterLiteral => exactly "'" * characterElement∗ * exactly "'"
  | .commentOpening => exactly "/*"
  | .punctuation => oneOf fun char => ¬ Reserved char

/-- A rule matches a word at the front of a text, no rule matches a longer one there, and an identifier is
    no keyword. -/
structure Munch (text : List Char) (rule : Rule) (lexeme : List Char) : Prop where
  matched : lexeme ∈ rule.pattern
  front : lexeme <+: text
  longest : ∀ other : Rule, ∀ word ∈ other.pattern, word <+: text → word.length ≤ lexeme.length
  preferred : rule = .identifier → ∀ spelling kind, lexeme ∉ (Rule.literal spelling kind).pattern

/-! ### Matches -/

/-- What a match means: nothing, a token, or a failure with its message. -/
inductive Match where
  | skip
  | token (kind : Kind)
  | failure (message : String)
  deriving DecidableEq, Repr

/-- What the match of a rule means by itself. What the opening of a block comment means is decided by the
    text behind it. -/
def Rule.meaning (lexeme : List Char) : Rule → Option Match
  | .blanks => some .skip
  | .lineComment => some .skip
  | .directive => some .skip
  | .literal _ kind => some (.token kind)
  | .identifier => some (.token (.identifier (String.ofList lexeme)))
  | .number => some (.token .number)
  | .stringLiteral => some (.token .stringLiteral)
  | .unterminatedString => some (.failure "unterminated string literal")
  | .characterLiteral => some (.token .characterLiteral)
  | .commentOpening => none
  | .punctuation => some (.token .punctuation)

/-- A run of elements at the front of a text, and no longer one is there. -/
structure LongestRun (element : Language Char) (text run : List Char) : Prop where
  elements : run ∈ element∗
  front : run <+: text
  longest : ∀ word ∈ element∗, word <+: text → word.length ≤ run.length

/-- A single quote with something behind it that could be the body of a character literal. -/
def Stray (rule : Rule) (behind : List Char) : Prop :=
  rule = .literal "'" .quote ∧ ∃ element ∈ characterElement, element <+: behind

/-- A directive that ends before a backslash, the last character of the text. -/
def Swallows (rule : Rule) (behind : List Char) : Prop :=
  rule = .directive ∧ behind = ['\\']

/-- What comes of a match with what is behind it: what stands there, the characters that it takes, and what is
    behind those. -/
inductive Outcome (rule : Rule) (lexeme behind : List Char) : Match → List Char → List Char → Prop
  | plain {meant : Match} : rule.meaning lexeme = some meant → ¬ Stray rule behind → ¬ Swallows rule behind →
      Outcome rule lexeme behind meant lexeme behind
  /-- A block comment ends with the first closing mark behind its opening. -/
  | comment {inside rest : List Char} : rule = .commentOpening → inside ++ ['*', '/'] ++ rest = behind →
      ¬ ['*', '/'] <:+: inside ++ ['*'] → Outcome rule lexeme behind .skip (lexeme ++ inside ++ ['*', '/']) rest
  /-- A block comment without a closing mark takes the rest of the text. -/
  | unterminatedComment : rule = .commentOpening → ¬ ['*', '/'] <:+: behind →
      Outcome rule lexeme behind (.failure "unterminated block comment") (lexeme ++ behind) []
  /-- A stray quote takes the longest run of elements behind it. -/
  | stray {run rest : List Char} : Stray rule behind → LongestRun characterElement behind run →
      run ++ rest = behind → Outcome rule lexeme behind (.failure "unexpected character '''") (lexeme ++ run) rest
  /-- A directive swallows a lone backslash at the end of the text. -/
  | swallows : Swallows rule behind → Outcome rule lexeme behind .skip (lexeme ++ behind) []

/-- The reference: what comes of the longest match at the front of a text. -/
def Reference (text : List Char) (meant : Match) (taken rest : List Char) : Prop :=
  ∃ rule lexeme behind, Munch text rule lexeme ∧ lexeme ++ behind = text ∧
    Outcome rule lexeme behind meant taken rest

end Token

end ActorSurface
