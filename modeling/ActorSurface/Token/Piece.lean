import ActorSurface.Text.Utf8
import ActorSurface.Token.Kind

/-!
Cutting a source text into pieces. A piece is a skipped stretch (blanks, a comment, a directive), a
token, or a stretch that is malformed; each is the longest that its form allows at that place, and a
keyword is a whole word. The pieces of a text lose nothing (`Piece.cut_append`, `flatMap_text_pieces`)
and each of them holds at least one character (`Piece.cut_text_ne_nil`).
-/

namespace ActorSurface

namespace Token

/-- What is wrong with a stretch of text that is no token. -/
inductive LexicalFault where
  | unterminatedString
  | unterminatedComment
  | strayQuote
  deriving DecidableEq, Repr

/-- The wording of a lexical fault. -/
def LexicalFault.message : LexicalFault → String
  | .unterminatedString => "unterminated string literal"
  | .unterminatedComment => "unterminated block comment"
  | .strayQuote => "unexpected character '''"

/-- What carries no meaning for the structure of a file. -/
inductive Skipped where
  | blanks
  | lineComment
  | blockComment
  | directive
  deriving DecidableEq, Repr

/-- What a piece of the source is. -/
inductive Form where
  | skipped (what : Skipped)
  | token (kind : Kind)
  | malformed (fault : LexicalFault)
  deriving DecidableEq, Repr

/-- A stretch of the source and what it is. -/
structure Piece where
  form : Form
  text : List Char
  deriving DecidableEq, Repr

/-! ### Characters -/

/-- Blanks: space, tab, newline, carriage return and form feed. -/
def isBlank (char : Char) : Bool :=
  char = ' ' || char = '\t' || char = '\n' || char = '\r' || char = '\x0c'

/-- What begins a word: an ASCII letter or an underscore. -/
def isWordStart (char : Char) : Bool :=
  char.isAlpha || char = '_'

/-- What continues a word: an ASCII letter, a digit or an underscore. -/
def isWordPart (char : Char) : Bool :=
  char.isAlphanum || char = '_'

/-- What continues a number behind its first digit: a word's characters, points and digit separators. -/
def isNumberPart (char : Char) : Bool :=
  isWordPart char || char = '.' || char = '\''

/-! ### Bodies

Each function splits the text into the longest body at its front and what is behind that body. -/

/-- The body of a string literal: a backslash takes any next character with it, and else the body ends
    before a double quote, a newline, or a backslash that ends the text. -/
def stringBody : List Char → List Char × List Char
  | [] => ([], [])
  | '\\' :: escaped :: text =>
    let (body, rest) := stringBody text
    ('\\' :: escaped :: body, rest)
  | char :: text =>
    if char = '"' || char = '\\' || char = '\n' then ([], char :: text)
    else
      let (body, rest) := stringBody text
      (char :: body, rest)

/-- The body of a character literal: a backslash takes any next character but a newline with it, and else
    the body ends before a single quote, a newline or such a backslash. -/
def characterBody : List Char → List Char × List Char
  | [] => ([], [])
  | '\\' :: escaped :: text =>
    if escaped = '\n' then ([], '\\' :: escaped :: text)
    else
      let (body, rest) := characterBody text
      ('\\' :: escaped :: body, rest)
  | char :: text =>
    if char = '\'' || char = '\\' || char = '\n' then ([], char :: text)
    else
      let (body, rest) := characterBody text
      (char :: body, rest)

/-- The rest of a directive: up to a newline that no backslash continues. The line is also continued by a
    backslash before a carriage return and newline. -/
def directiveBody : List Char → List Char × List Char
  | [] => ([], [])
  | '\\' :: '\r' :: '\n' :: text =>
    let (body, rest) := directiveBody text
    ('\\' :: '\r' :: '\n' :: body, rest)
  | '\\' :: escaped :: text =>
    let (body, rest) := directiveBody text
    ('\\' :: escaped :: body, rest)
  | char :: text =>
    if char = '\n' then ([], char :: text)
    else
      let (body, rest) := directiveBody text
      (char :: body, rest)

/-- The rest of a block comment through its closing mark, or nothing where no such mark follows. -/
def commentBody : List Char → Option (List Char × List Char)
  | [] => none
  | '*' :: '/' :: text => some (['*', '/'], text)
  | char :: text => (commentBody text).map fun (body, rest) => (char :: body, rest)

theorem stringBody_append (text : List Char) : (stringBody text).1 ++ (stringBody text).2 = text := by
  fun_induction stringBody text <;> simp_all

theorem characterBody_append (text : List Char) :
    (characterBody text).1 ++ (characterBody text).2 = text := by
  fun_induction characterBody text <;> simp_all

theorem directiveBody_append (text : List Char) :
    (directiveBody text).1 ++ (directiveBody text).2 = text := by
  fun_induction directiveBody text <;> simp_all

theorem commentBody_append {text body rest : List Char} (closed : commentBody text = some (body, rest)) :
    body ++ rest = text := by
  fun_induction commentBody text generalizing body rest with
  | case1 => simp at closed
  | case2 text =>
    obtain ⟨rfl, rfl⟩ : ['*', '/'] = body ∧ text = rest := by simpa using closed
    rfl
  | case3 char text _ ih =>
    obtain ⟨⟨inner, behind⟩, found, equal⟩ := Option.map_eq_some_iff.mp closed
    simp only [Prod.mk.injEq] at equal
    obtain ⟨rfl, rfl⟩ := equal
    simp [ih found]

/-! ### Pieces -/

namespace Piece

/-- The piece that begins with a blank, and the text behind it. -/
def cutBlanks (char : Char) (text : List Char) : Piece × List Char :=
  (⟨.skipped .blanks, char :: text.takeWhile isBlank⟩, text.dropWhile isBlank)

/-- The piece that begins with a letter or an underscore, and the text behind it. -/
def cutWord (char : Char) (text : List Char) : Piece × List Char :=
  let word := char :: text.takeWhile isWordPart
  (⟨.token (.ofWord (String.ofList word)), word⟩, text.dropWhile isWordPart)

/-- The piece that begins with a digit, and the text behind it. -/
def cutNumber (char : Char) (text : List Char) : Piece × List Char :=
  (⟨.token .number, char :: text.takeWhile isNumberPart⟩, text.dropWhile isNumberPart)

/-- The piece that begins with a number sign, and the text behind it. -/
def cutDirective (text : List Char) : Piece × List Char :=
  let (body, rest) := directiveBody text
  (⟨.skipped .directive, '#' :: body⟩, rest)

/-- The piece that begins with a double quote, and the text behind it. A string without a closing quote
    ends with its body. -/
def cutString (text : List Char) : Piece × List Char :=
  match stringBody text with
  | (body, '"' :: rest) => (⟨.token .stringLiteral, '"' :: (body ++ ['"'])⟩, rest)
  | (body, rest) => (⟨.malformed .unterminatedString, '"' :: body⟩, rest)

/-- The piece that begins with a single quote, and the text behind it. A quote that closes no literal is a
    token where nothing could be its body, and else malformed together with that body. -/
def cutQuote (text : List Char) : Piece × List Char :=
  match characterBody text with
  | (body, '\'' :: rest) => (⟨.token .characterLiteral, '\'' :: (body ++ ['\''])⟩, rest)
  | ([], rest) => (⟨.token .quote, ['\'']⟩, rest)
  | (body, rest) => (⟨.malformed .strayQuote, '\'' :: body⟩, rest)

/-- The piece that begins with a slash, and the text behind it. A block comment without a closing mark
    takes the rest of the text. -/
def cutSlash : List Char → Piece × List Char
  | '/' :: text =>
    (⟨.skipped .lineComment, '/' :: '/' :: text.takeWhile (· ≠ '\n')⟩, text.dropWhile (· ≠ '\n'))
  | '*' :: text =>
    match commentBody text with
    | some (body, rest) => (⟨.skipped .blockComment, '/' :: '*' :: body⟩, rest)
    | none => (⟨.malformed .unterminatedComment, '/' :: '*' :: text⟩, [])
  | text => (⟨.token .slash, ['/']⟩, text)

/-- The piece that begins with a character, and the text behind the piece. -/
def cut (char : Char) (text : List Char) : Piece × List Char :=
  if isBlank char then cutBlanks char text
  else if isWordStart char then cutWord char text
  else if char.isDigit then cutNumber char text
  else if char = '#' then cutDirective text
  else if char = '"' then cutString text
  else if char = '\'' then cutQuote text
  else if char = '/' then cutSlash text
  else (⟨.token (.ofCharacter char), [char]⟩, text)

theorem cutString_append (text : List Char) :
    (cutString text).1.text ++ (cutString text).2 = '"' :: text := by
  have whole := stringBody_append text
  unfold cutString
  split <;> simp_all

theorem cutQuote_append (text : List Char) :
    (cutQuote text).1.text ++ (cutQuote text).2 = '\'' :: text := by
  have whole := characterBody_append text
  unfold cutQuote
  split <;> simp_all

theorem cutSlash_append (text : List Char) :
    (cutSlash text).1.text ++ (cutSlash text).2 = '/' :: text := by
  unfold cutSlash
  split
  · simp [List.takeWhile_append_dropWhile]
  · split
    · rename_i found
      simp [commentBody_append found]
    · simp
  · simp

/-- The first piece and the text behind it are the whole text. -/
theorem cut_append (char : Char) (text : List Char) :
    (cut char text).1.text ++ (cut char text).2 = char :: text := by
  unfold cut
  split
  · simp [cutBlanks, List.takeWhile_append_dropWhile]
  split
  · simp [cutWord, List.takeWhile_append_dropWhile]
  split
  · simp [cutNumber, List.takeWhile_append_dropWhile]
  split
  · simp_all [cutDirective, directiveBody_append]
  split
  · simp_all [cutString_append]
  split
  · simp_all [cutQuote_append]
  split
  · simp_all [cutSlash_append]
  · simp

/-- The first piece holds at least one character. -/
theorem cut_text_ne_nil (char : Char) (text : List Char) : (cut char text).1.text ≠ [] := by
  unfold cut cutBlanks cutWord cutNumber cutDirective cutString cutQuote cutSlash
  repeat' split
  all_goals simp

theorem cut_rest_length_le (char : Char) (text : List Char) : (cut char text).2.length ≤ text.length := by
  have whole := congrArg List.length (cut_append char text)
  have some_character := List.length_pos_iff.mpr (cut_text_ne_nil char text)
  simp only [List.length_append, List.length_cons] at whole
  omega

/-- The number of bytes of a piece. -/
def size (piece : Piece) : Nat :=
  Utf8.size piece.text

end Piece

/-- The pieces of a text, in order. -/
def pieces : List Char → List Piece
  | [] => []
  | char :: text =>
    let cut := Piece.cut char text
    cut.1 :: pieces cut.2
termination_by text => text.length
decreasing_by
  have := Piece.cut_rest_length_le char text
  simp only [List.length_cons]
  omega

/-- The pieces of a text are that text. -/
theorem flatMap_text_pieces (text : List Char) : (pieces text).flatMap Piece.text = text := by
  fun_induction pieces text with
  | case1 => rfl
  | case2 char text cut ih => simpa [ih] using Piece.cut_append char text

end Token

end ActorSurface
