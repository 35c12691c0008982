import ActorSurface.Engine
import ActorSurface.Failure

/-!
The command line: an input path, an output path, and further arguments of which those that spell a flag
count. Paths are taken verbatim, whatever they look like, and arguments that are no flag are ignored. Which tokens there
are among the further arguments is asked of a parser, and where it refuses them each is taken for one.
-/

namespace ActorSurface

/-- The name under which the program shows itself. -/
def programName : String := "actorcompiler"

/-- How the program is used. -/
def usage : String :=
  "Usage:\n  actorcompiler <input> <output> [--disable-actor-without-wait-warning]"

/-- What a further argument can ask for. -/
inductive Flag where
  | disableActorWithoutWaitWarning
  deriving DecidableEq, Repr

namespace Flag

/-- The spelling of a flag. -/
def spelling : Flag → String
  | .disableActorWithoutWaitWarning => "--disable-actor-without-wait-warning"

/-- The flag that a text spells. -/
def ofText? (text : String) : Option Flag :=
  if text = disableActorWithoutWaitWarning.spelling then some .disableActorWithoutWaitWarning else none

/-- The flag that an argument spells. Bytes that are not well-formed text spell none. -/
def ofArgument? (argument : Bytes) : Option Flag :=
  (Utf8.decode? argument).bind ofText?

end Flag

/-- A set of flags, as which of them are in it: two sets with the same flags are equal. -/
structure Flags where
  disableActorWithoutWaitWarning : Bool := false
  deriving DecidableEq, Repr

namespace Flags

/-- Whether a flag is in a set. -/
def contains (flags : Flags) : Flag → Bool
  | .disableActorWithoutWaitWarning => flags.disableActorWithoutWaitWarning

/-- A set with a flag put into it. -/
def insert (flags : Flags) : Flag → Flags
  | .disableActorWithoutWaitWarning => { flags with disableActorWithoutWaitWarning := true }

/-- The flags that are spelled among tokens. Every other token is ignored. -/
def ofTokens (tokens : List Bytes) : Flags :=
  (tokens.filterMap Flag.ofArgument?).foldl insert {}

end Flags

/-- A parser of further arguments: the tokens that it finds among them, or nothing where it refuses them. -/
abbrev Parser := List Bytes → Option (List Bytes)

namespace Parser

/-- The parser that refuses everything. -/
def refusing : Parser := fun _ => none

/-- The tokens among further arguments: what the parser finds, or all of them where it refuses them. -/
def tokens (parser : Parser) (further : List Bytes) : List Bytes :=
  (parser further).getD further

end Parser

/-- A command line that names no input and output. -/
structure UsageError where
  given : Nat
  deriving DecidableEq, Repr

/-- The wording of a usage error. -/
def UsageError.message (error : UsageError) : String :=
  "expected <input> <output>, got " ++ toString error.given ++ " argument(s)"

/-- What one run is asked to do: the paths, and the flags that are set. -/
structure Invocation where
  input : Bytes
  output : Bytes
  flags : Flags
  deriving DecidableEq, Repr

namespace Invocation

/-- The invocation that the arguments spell, as a parser finds the tokens among the further ones: the first two are the
    paths. -/
def resolve (parser : Parser) : List Bytes → Except UsageError Invocation
  | input :: output :: further => .ok ⟨input, output, .ofTokens (parser.tokens further)⟩
  | arguments => .error ⟨arguments.length⟩

/-- The invocation that the arguments spell, each further one a token. -/
def ofArguments : List Bytes → Except UsageError Invocation :=
  resolve .refusing

/-- The line that shows the arguments of an invocation. -/
def echo (arguments : List Bytes) : String :=
  programName ++ " " ++ " ".intercalate (arguments.map Utf8.lossy)

/-- The name of the input file in diagnostics. -/
def file (invocation : Invocation) : String :=
  Utf8.lossy invocation.input

/-- Whether a flag is set. -/
def hasFlag (invocation : Invocation) (flag : Flag) : Bool :=
  invocation.flags.contains flag

/-- The options for the engine: it warns of actors that never wait unless that is disabled. -/
def engineOptions (invocation : Invocation) : Engine.Options :=
  ⟨!invocation.hasFlag .disableActorWithoutWaitWarning⟩

end Invocation

end ActorSurface
