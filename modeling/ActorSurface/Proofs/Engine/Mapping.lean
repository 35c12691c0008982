import ActorSurface.Engine.Layout
import ActorSurface.Proofs.Text.LineTable
import ActorSurface.Proofs.Text.Lines

/-!
How a generated file maps back to its source. Its first line is a comment, its second names the source in quotes that
the name leaves closed (`unquote_quoted`), and the source is behind these two, just where neither path holds a newline
(`mapsBack_iff`). Each newline of a path moves the source one line further down, for each time that the path is written
(`linesOf_layout`).
-/

namespace ActorSurface

theorem newline_mem_normalizePath {path : Bytes} : '\n' ∈ (normalizePath path).toList ↔ Utf8.newline ∈ path := by
  have kept : ∀ char : Char, (if char = '\\' then '/' else char) = '\n' ↔ char = '\n' := by
    intro char
    split
    next same =>
      subst same
      decide
    next => rfl
  rw [normalizePath, String.toList_ofList, List.mem_map, ← Utf8.newline_mem_lossy]
  simp only [kept, exists_eq_right]

theorem backslash_not_mem_normalizePath (path : Bytes) : '\\' ∉ (normalizePath path).toList := by
  rw [normalizePath, String.toList_ofList, List.mem_map]
  rintro ⟨char, -, same⟩
  split at same
  next => revert same; decide
  next other => exact other same

theorem newlines_eq_zero {text : List Char} : newlines text = 0 ↔ '\n' ∉ text :=
  List.count_eq_zero

namespace Engine

namespace Layout

/-! ### Quotes -/

/-- What a text behind a double quote stands for up to the quote that closes it, and what is behind that one. A quote
    behind a backslash is one of the text. -/
def unquote : List Char → Option (List Char × List Char)
  | [] => none
  | '"' :: rest => some ([], rest)
  | '\\' :: '"' :: rest => (unquote rest).map fun (name, behind) => ('"' :: name, behind)
  | char :: rest => (unquote rest).map fun (name, behind) => (char :: name, behind)

theorem toList_quoted (path : String) :
    (quoted path).toList = path.toList.flatMap fun char => if char = '"' then ['\\', '"'] else [char] := by
  rw [quoted, String.toList_ofList]

theorem unquote_cons {char : Char} (notQuote : char ≠ '"') (notBackslash : char ≠ '\\') (rest : List Char) :
    unquote (char :: rest) = (unquote rest).map fun (name, behind) => (char :: name, behind) := by
  rw [unquote]
  · exact fun same => notQuote same
  · exact fun _ same _ => notBackslash same

/-- A path without backslashes is read back from between its quotes. -/
theorem unquote_quoted {path : String} (plain : '\\' ∉ path.toList) (behind : List Char) :
    unquote ((quoted path).toList ++ '"' :: behind) = some (path.toList, behind) := by
  rw [toList_quoted]
  generalize path.toList = text at plain
  induction text with
  | nil => rfl
  | cons char text ih =>
    simp only [List.mem_cons, not_or] at plain
    have others := ih plain.2
    by_cases quote : char = '"'
    · subst quote
      simp [unquote, others]
    · simp [unquote_cons quote (Ne.symm plain.1), others, quote]

/-! ### Lines -/

/-- The text with a newline at its end, unless it is empty or has one there. -/
def ended (text : String) : String :=
  if text = "" ∨ text.toList.getLast? = some '\n' then text else text ++ "\n"

/-- A generated file maps back to a source: its first line is a comment, its second names the path of the source between
    quotes of which the later ends the line, and behind these is the source. -/
def MapsBack (path source generated : String) : Prop :=
  ∃ comment name : String, '\n' ∉ comment.toList ∧ '\n' ∉ name.toList ∧
    generated = "//" ++ comment ++ "\n" ++ "#line 1 \"" ++ name ++ "\"\n" ++ ended source ∧
    unquote (name.toList ++ ['"']) = some (path.toList, [])

theorem append_lineEnd (text : String) : text ++ lineEnd text = ended text := by
  have filled : text = "" ↔ text.toList.getLast? = none := by
    rw [List.getLast?_eq_none_iff, String.toList_eq_nil_iff]
  unfold lineEnd ended
  simp only [filled]
  cases last : text.toList.getLast? with
  | none => simp
  | some char =>
    by_cases newline : char = '\n'
    · simp [newline]
    · simp [newline]

/-! ### Newlines -/

theorem newlines_quoted (path : String) : newlines (quoted path).toList = newlines path.toList := by
  rw [toList_quoted]
  induction path.toList with
  | nil => rfl
  | cons char text ih =>
    rw [List.flatMap_cons, newlines_append, ih]
    by_cases newline : char = '\n'
    · subst newline
      simp [newlines_newline, Nat.add_comm]
    · rw [newlines_cons_of_ne newline]
      split
      next same =>
        subst same
        exact Nat.zero_add _
      next => rw [newlines_cons_of_ne newline, newlines_nil, Nat.zero_add]

theorem newlines_banner (inputPath outputPath : String) :
    newlines (banner inputPath outputPath).toList = newlines inputPath.toList + newlines outputPath.toList + 1 := by
  have opening : newlines "// Generated by actorcompiler from ".toList = 0 := by decide +kernel
  have between : newlines " into ".toList = 0 := by decide +kernel
  have closing : newlines ". Do not edit.\n".toList = 1 := by decide +kernel
  unfold banner
  simp only [String.toList_append, newlines_append, opening, between, closing]
  omega

theorem newlines_lineDirective (path : String) : newlines (lineDirective path).toList = newlines path.toList + 1 := by
  have opening : newlines "#line 1 \"".toList = 0 := by decide +kernel
  have closing : newlines "\"\n".toList = 1 := by decide +kernel
  unfold lineDirective
  simp only [String.toList_append, newlines_append, newlines_quoted, opening, closing]
  omega

end Layout

theorem Request.layout_eq (request : Request) :
    request.layout = Layout.banner request.inputPath request.outputPath ++ Layout.lineDirective request.inputPath ++
      Layout.ended request.text := by
  rw [Request.layout, String.append_assoc, Layout.append_lineEnd]

/-- A generated file maps back to its source just where neither path holds a newline. -/
theorem mapsBack_iff (text : String) (input output : Bytes) (options : Options) :
    Layout.MapsBack (normalizePath input) text (Request.ofPaths text input output options).layout ↔
      Utf8.newline ∉ input ∧ Utf8.newline ∉ output := by
  rw [← newline_mem_normalizePath, ← newline_mem_normalizePath, Request.layout_eq]
  change Layout.MapsBack _ _ (Layout.banner (normalizePath input) (normalizePath output) ++
    Layout.lineDirective (normalizePath input) ++ Layout.ended text) ↔ _
  constructor
  · rintro ⟨comment, name, inLine, nameInLine, whole, -⟩
    have fronts : newlines ((Layout.banner (normalizePath input) (normalizePath output)).toList ++
          (Layout.lineDirective (normalizePath input)).toList) =
        newlines ("//".toList ++ comment.toList ++ "\n".toList ++ "#line 1 \"".toList ++ name.toList ++
          "\"\n".toList) := by
      have chars := congrArg String.toList whole
      simp only [String.toList_append] at chars
      exact congrArg newlines (List.append_cancel_right chars)
    have opening : newlines "//".toList = 0 := by decide +kernel
    have ending : newlines "\n".toList = 1 := by decide +kernel
    have directive : newlines "#line 1 \"".toList = 0 := by decide +kernel
    have closing : newlines "\"\n".toList = 1 := by decide +kernel
    simp only [newlines_append, Layout.newlines_banner, Layout.newlines_lineDirective, opening, ending, directive,
      closing, newlines_eq_zero.mpr inLine, newlines_eq_zero.mpr nameInLine] at fronts
    exact ⟨newlines_eq_zero.mp (by omega), newlines_eq_zero.mp (by omega)⟩
  · rintro ⟨inputLine, outputLine⟩
    have quotedLine : '\n' ∉ (Layout.quoted (normalizePath input)).toList := by
      rw [← newlines_eq_zero, Layout.newlines_quoted, newlines_eq_zero]
      exact inputLine
    refine ⟨" Generated by actorcompiler from " ++ normalizePath input ++ " into " ++ normalizePath output ++
        ". Do not edit.", Layout.quoted (normalizePath input), ?_, quotedLine, ?_,
      Layout.unquote_quoted (backslash_not_mem_normalizePath input) []⟩
    · have opening : '\n' ∉ " Generated by actorcompiler from ".toList := by decide +kernel
      have between : '\n' ∉ " into ".toList := by decide +kernel
      have closing : '\n' ∉ ". Do not edit.".toList := by decide +kernel
      simp only [String.toList_append, List.mem_append, opening, inputLine, between, outputLine, closing, or_self,
        not_false_eq_true]
    · have opening : "// Generated by actorcompiler from " = "//" ++ " Generated by actorcompiler from " := by
        decide +kernel
      have closing : ". Do not edit.\n" = ". Do not edit." ++ "\n" := by decide +kernel
      unfold Layout.banner Layout.lineDirective
      simp only [opening, closing, String.append_assoc]

/-! ### Lines of the source -/

/-- The lines of a text: what stands between its newlines. -/
def linesOf (text : String) : List (List Char) :=
  text.toList.splitOn '\n'

theorem length_splitOn_newline (text : List Char) : (text.splitOn '\n').length = newlines text + 1 := by
  induction text with
  | nil => rfl
  | cons char text ih =>
    rw [List.splitOn_cons_eq_if_modifyHead]
    by_cases newline : char = '\n'
    · subst newline
      rw [if_pos (beq_self_eq_true _), newlines_newline, List.length_cons, ih]
    · rw [if_neg (by simpa using newline), newlines_cons_of_ne newline, List.length_modifyHead, ih]

/-- A newline at the end adds no line in front of it. -/
theorem linesOf_ended (text : String) : linesOf text <+: linesOf (Layout.ended text) := by
  unfold Layout.ended
  split
  next => exact List.prefix_rfl
  next =>
    have ending : "\n".toList = '\n' :: [] := by decide +kernel
    unfold linesOf
    rw [String.toList_append, ending, List.splitOn_append_cons_self]
    exact List.prefix_append _ _

/-- What is before a newline is as many lines as it has newlines with that one. -/
theorem linesOf_behind (front behind : String) :
    (linesOf (front ++ "\n" ++ behind)).drop (newlines (front ++ "\n").toList) = linesOf behind := by
  have ending : "\n".toList = '\n' :: [] := by decide +kernel
  have count : newlines (front ++ "\n").toList = (front.toList.splitOn '\n').length := by
    rw [length_splitOn_newline, String.toList_append, newlines_append, ending, newlines_newline, newlines_nil]
  have split : (front ++ "\n" ++ behind).toList = front.toList ++ '\n' :: behind.toList := by
    simp [ending]
  rw [linesOf, split, List.splitOn_append_cons_self, count, List.drop_left]
  rfl

/-- The lines of the source are the lines of the file behind the first two, and behind one for each newline of a path
    that is written there. -/
theorem linesOf_layout (request : Request) :
    linesOf request.text <+: (linesOf request.layout).drop
      (2 + 2 * newlines request.inputPath.toList + newlines request.outputPath.toList) := by
  have closing : "\"\n" = "\"" ++ "\n" := by decide +kernel
  have front : Layout.banner request.inputPath request.outputPath ++ Layout.lineDirective request.inputPath =
      Layout.banner request.inputPath request.outputPath ++
        ("#line 1 \"" ++ Layout.quoted request.inputPath ++ "\"") ++ "\n" := by
    unfold Layout.lineDirective
    simp only [closing, String.append_assoc]
  have count : newlines (Layout.banner request.inputPath request.outputPath ++
      Layout.lineDirective request.inputPath).toList =
        2 + 2 * newlines request.inputPath.toList + newlines request.outputPath.toList := by
    rw [String.toList_append, newlines_append, Layout.newlines_banner, Layout.newlines_lineDirective]
    omega
  rw [← count, Request.layout_eq, front, linesOf_behind]
  exact linesOf_ended request.text

/-- A generated file is a comment line, a directive line and its source just where neither path holds a newline.
    Whatever the paths hold, the quoted name is read back as the normalized path of the source, up to the quote that
    closes it, and the lines of the source stand in the file behind two lines, and one more for each time that a newline
    of a path is written. -/
theorem layout_mapsBack_iff (text : String) (input output : Bytes) (options : Options) :
    let layout := (Request.ofPaths text input output options).layout
    (Layout.MapsBack (normalizePath input) text layout ↔ Utf8.newline ∉ input ∧ Utf8.newline ∉ output) ∧
    (∃ front name : String, layout = front ++ "#line 1 \"" ++ name ++ "\"\n" ++ Layout.ended text ∧
      ∀ behind, Layout.unquote (name.toList ++ '"' :: behind) = some ((normalizePath input).toList, behind)) ∧
    linesOf text <+: (linesOf layout).drop
      (2 + 2 * newlines (normalizePath input).toList + newlines (normalizePath output).toList) := by
  intro layout
  refine ⟨mapsBack_iff text input output options, ?_, linesOf_layout (Request.ofPaths text input output options)⟩
  refine ⟨Layout.banner (normalizePath input) (normalizePath output), Layout.quoted (normalizePath input), ?_,
    Layout.unquote_quoted (backslash_not_mem_normalizePath input)⟩
  change (Request.ofPaths text input output options).layout = _
  rw [Request.layout_eq]
  change Layout.banner (normalizePath input) (normalizePath output) ++ Layout.lineDirective (normalizePath input) ++
    Layout.ended text = _
  unfold Layout.lineDirective
  simp only [String.append_assoc]

/-- A file generated for an output whose path holds a newline does not map back to its source. -/
theorem not_always_mapsBack :
    ¬ ∀ (text : String) (input output : Bytes) (options : Options),
      Layout.MapsBack (normalizePath input) text (Request.ofPaths text input output options).layout := by
  intro claimed
  obtain ⟨-, unbroken⟩ := (mapsBack_iff "x\n" [0x69] [0x61, 0x0A, 0x62] {}).mp (claimed _ _ _ _)
  exact absurd unbroken (by decide)

end Engine

end ActorSurface
