import ActorSurface.Engine

/-!
The layout of a generated file: a banner comment, a directive that maps the lines behind it back to the
input, and the source text, ended by a newline.
-/

namespace ActorSurface

namespace Engine

namespace Layout

/-- The comment line that names the two files. -/
def banner (inputPath outputPath : String) : String :=
  "// Generated by actorcompiler from " ++ inputPath ++ " into " ++ outputPath ++ ". Do not edit.\n"

/-- A path between the quotes of a directive: each double quote gets a backslash before it. -/
def quoted (path : String) : String :=
  String.ofList (path.toList.flatMap fun char => if char = '"' then ['\\', '"'] else [char])

/-- The directive that makes the next line count as line 1 of a file. -/
def lineDirective (path : String) : String :=
  "#line 1 \"" ++ quoted path ++ "\"\n"

/-- A newline where a text needs one to end its last line. -/
def lineEnd (text : String) : String :=
  match text.toList.getLast? with
  | none => ""
  | some '\n' => ""
  | some _ => "\n"

end Layout

/-- The generated file of a request. -/
def Request.layout (request : Request) : String :=
  Layout.banner request.inputPath request.outputPath ++ Layout.lineDirective request.inputPath ++
    request.text ++ Layout.lineEnd request.text

end Engine

end ActorSurface
