/-!
The kinds of token that the structure of a file rests on. Only what the scan for actors looks at is told
apart: everything else of the host language is a number, a literal or punctuation.
-/

namespace ActorSurface

namespace Token

/-- The kind of a token. Of the kinds only an identifier carries its text. -/
inductive Kind where
  | actor
  | wait
  | waitNext
  | uncancellable
  | future
  | void
  | static
  | template
  | identifier (name : String)
  | number
  | stringLiteral
  | characterLiteral
  | openBrace
  | closeBrace
  | openParen
  | closeParen
  | less
  | greater
  | semicolon
  | slash
  | quote
  | punctuation
  | endOfText
  deriving DecidableEq, Repr

namespace Kind

/-- The words that are keywords, as the whole of a word only. -/
def keywords : List (String × Kind) :=
  [("ACTOR", .actor), ("wait", .wait), ("waitNext", .waitNext), ("UNCANCELLABLE", .uncancellable),
    ("Future", .future), ("void", .void), ("static", .static), ("template", .template)]

/-- The kind of a word: a keyword, or else an identifier. -/
def ofWord (word : String) : Kind :=
  (keywords.lookup word).getD (.identifier word)

/-- The kind of a character that is a token by itself. -/
def ofCharacter (char : Char) : Kind :=
  match char with
  | '{' => .openBrace
  | '}' => .closeBrace
  | '(' => .openParen
  | ')' => .closeParen
  | '<' => .less
  | '>' => .greater
  | ';' => .semicolon
  | '/' => .slash
  | '\'' => .quote
  | _ => .punctuation

/-- Whether two kinds are the same one, the text of identifiers aside. -/
def alike : Kind → Kind → Bool
  | .identifier _, .identifier _ => true
  | kind, other => kind == other

end Kind

end Token

end ActorSurface
