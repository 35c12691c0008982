import ActorSurface.Engine.Surface
import ActorSurface.Proofs.Actor.Concatenation
import Mathlib.Data.List.TakeWhile

/-!
Generated files as sources. The banner is a comment and the directive a directive whatever the paths hold, as long as they
hold no newline, and the newline at the end adds nothing; so the items of a generated file are those of its source, two
lines further down (`items_layout`). Hence the built-in engine takes what it made for the same file once more
(`surface_of_produced`).
-/

namespace ActorSurface

namespace Token

variable {text : List Char}

/-- A line comment at the front of a text is passed over with its line. -/
theorem itemsFrom_lineComment (inLine : '\n' ∉ text) (line : Nat) (more : List Char) :
    itemsFrom line ('/' :: '/' :: (text ++ '\n' :: more)) = itemsFrom (line + 1) more := by
  have taken : text.takeWhile (· ≠ '\n') = text := by
    refine List.takeWhile_eq_self_iff.mpr fun char listed => ?_
    simpa using ne_of_mem_of_not_mem listed inLine
  have left : text.dropWhile (· ≠ '\n') = [] := by
    refine List.dropWhile_eq_nil_iff.mpr fun char listed => ?_
    simpa using ne_of_mem_of_not_mem listed inLine
  have cut : Piece.cut '/' ('/' :: (text ++ '\n' :: more)) = (⟨.skipped .lineComment, '/' :: '/' :: text⟩, '\n' :: more) := by
    rw [cut_slash, Piece.cutSlash, takeWhile_append_of_stop (by decide), dropWhile_append_of_stop (by decide), taken, left,
      List.nil_append]
  have lines : newlines ('/' :: '/' :: text) = 0 := List.count_eq_zero.mpr (by simpa using inLine)
  rw [itemsFrom_cons, cut, lines, itemsFrom_newline]
  rfl

/-- A directive without a newline takes all of its text. -/
theorem directiveBody_of_inLine (inLine : '\n' ∉ text) : directiveBody text = (text, []) := by
  fun_induction directiveBody text with
  | case1 => rfl
  | case2 text => simp at inLine
  | case3 escaped text notContinued body rest inside ih =>
    simp only [List.mem_cons, not_or] at inLine
    obtain ⟨rfl, rfl⟩ := Prod.mk.inj (inside.symm.trans (ih inLine.2.2))
    rfl
  | case4 text => simp at inLine
  | case5 char text notContinued notEscape goesOn body rest inside ih =>
    simp only [List.mem_cons, not_or] at inLine
    obtain ⟨rfl, rfl⟩ := Prod.mk.inj (inside.symm.trans (ih inLine.2))
    rfl

/-- A directive at the front of a text that does not continue over its newline is passed over with its line. -/
theorem itemsFrom_directiveLine (inLine : '\n' ∉ text) (ends : ¬ EndsContinued text) (line : Nat) (more : List Char) :
    itemsFrom line ('#' :: (text ++ '\n' :: more)) = itemsFrom (line + 1) more := by
  have body := directiveBody_append_newline (directiveBody_of_inLine inLine) (fun _ => ends) more
  have cut : Piece.cut '#' (text ++ '\n' :: more) = (⟨.skipped .directive, '#' :: text⟩, '\n' :: more) := by
    rw [cut_sign, Piece.cutDirective, body]
    rfl
  have lines : newlines ('#' :: text) = 0 := List.count_eq_zero.mpr (by simpa using inLine)
  rw [itemsFrom_cons, cut, lines, itemsFrom_newline]
  rfl

theorem not_endsContinued_quote (front : List Char) : ¬ EndsContinued (front ++ ['"']) := by
  rintro (backslash | both)
  · have last := List.singleton_suffix_append_singleton_iff.mp backslash
    revert last
    decide
  · have last := List.singleton_suffix_append_singleton_iff.mp ((List.suffix_append ['\\'] ['\r']).trans both)
    revert last
    decide

end Token

namespace Engine

namespace Layout

theorem newline_not_mem_quoted {path : String} (inLine : '\n' ∉ path.toList) : '\n' ∉ (quoted path).toList := by
  intro listed
  rw [quoted, String.toList_ofList, List.mem_flatMap] at listed
  obtain ⟨char, inside, here⟩ := listed
  by_cases quote : char = '"'
  · rw [if_pos quote] at here
    revert here
    decide
  · rw [if_neg quote, List.mem_singleton] at here
    exact inLine (here ▸ inside)

/-- The banner is passed over. -/
theorem itemsFrom_banner {inputPath outputPath : String} (input : '\n' ∉ inputPath.toList)
    (output : '\n' ∉ outputPath.toList) (line : Nat) (more : List Char) :
    Token.itemsFrom line ((banner inputPath outputPath).toList ++ more) = Token.itemsFrom (line + 1) more := by
  obtain ⟨first, opening, firstLine⟩ : ∃ first : List Char,
      "// Generated by actorcompiler from ".toList = '/' :: '/' :: first ∧ '\n' ∉ first :=
    ⟨" Generated by actorcompiler from ".toList, by decide +kernel, by decide +kernel⟩
  obtain ⟨middle, between, middleLine⟩ : ∃ middle : List Char, " into ".toList = middle ∧ '\n' ∉ middle :=
    ⟨_, rfl, by decide +kernel⟩
  obtain ⟨last, closing, lastLine⟩ : ∃ last : List Char, ". Do not edit.\n".toList = last ++ ['\n'] ∧ '\n' ∉ last :=
    ⟨". Do not edit.".toList, by decide +kernel, by decide +kernel⟩
  have text : (banner inputPath outputPath).toList ++ more =
      '/' :: '/' :: (first ++ inputPath.toList ++ middle ++ outputPath.toList ++ last ++ '\n' :: more) := by
    unfold banner
    simp only [String.toList_append, opening, between, closing, List.append_assoc, List.cons_append, List.nil_append]
  rw [text]
  refine Token.itemsFrom_lineComment ?_ line more
  simp only [List.mem_append, firstLine, input, middleLine, output, lastLine, or_self, not_false_eq_true]

/-- The directive is passed over, also where the path holds quotes. -/
theorem itemsFrom_lineDirective {path : String} (inLine : '\n' ∉ path.toList) (line : Nat) (more : List Char) :
    Token.itemsFrom line ((lineDirective path).toList ++ more) = Token.itemsFrom (line + 1) more := by
  obtain ⟨first, opening, firstLine⟩ : ∃ first : List Char, "#line 1 \"".toList = '#' :: first ∧ '\n' ∉ first :=
    ⟨"line 1 \"".toList, by decide +kernel, by decide +kernel⟩
  have closing : "\"\n".toList = ['"', '\n'] := by
    decide +kernel
  have text : (lineDirective path).toList ++ more = '#' :: (first ++ (quoted path).toList ++ ['"'] ++ '\n' :: more) := by
    simp only [lineDirective, String.toList_append, opening, closing, List.append_assoc, List.cons_append,
      List.nil_append]
  have quotedLine := newline_not_mem_quoted inLine
  have quoteLine : '\n' ∉ ['"'] := by
    decide
  rw [text]
  refine Token.itemsFrom_directiveLine ?_ (Token.not_endsContinued_quote _) line more
  simp only [List.mem_append, firstLine, quotedLine, quoteLine, or_self, not_false_eq_true]

/-- The newline that ends the last line adds no item to a text without a lexical fault. -/
theorem itemsFrom_lineEnd {text : String} {line : Nat} (faultless : Token.Faultless (Token.itemsFrom line text.toList)) :
    Token.itemsFrom line (text.toList ++ (lineEnd text).toList) = Token.itemsFrom line text.toList := by
  unfold lineEnd
  split
  · simp
  · simp
  · have ended := Token.itemsFrom_append_newline (.inl rfl) line faultless
    rw [Token.itemsFrom_nil, List.append_nil] at ended
    exact ended

end Layout

/-- The items of a generated file are those of its source, two lines further down. -/
theorem items_layout {request : Request} (input : '\n' ∉ request.inputPath.toList)
    (output : '\n' ∉ request.outputPath.toList) (faultless : Token.Faultless (Token.items request.text.toList)) :
    Token.items request.layout.toList = (Token.items request.text.toList).map (Located.shift 2) := by
  have text : request.layout.toList = (Layout.banner request.inputPath request.outputPath).toList ++
      ((Layout.lineDirective request.inputPath).toList ++
        (request.text.toList ++ (Layout.lineEnd request.text).toList)) := by
    simp [Request.layout]
  have lower := Token.itemsFrom_add 1 2 request.text.toList
  rw [Token.items_eq] at faultless
  have below : Token.Faultless (Token.itemsFrom (1 + 2) request.text.toList) := by
    rw [lower]
    exact faultless.shift 2
  rw [Token.items_eq, Token.items_eq, text, Layout.itemsFrom_banner input output, Layout.itemsFrom_lineDirective input,
    Layout.itemsFrom_lineEnd below, lower]

/-- The generated file of an accepted source declares the same, two lines further down. -/
theorem scan_layout (request : Request) (input : '\n' ∉ request.inputPath.toList)
    (output : '\n' ∉ request.outputPath.toList) {declared : List Actor.Declaration}
    (accepted : Actor.scan request.text = .ok declared) :
    Actor.scan request.layout = .ok (declared.map (Actor.Declaration.shift 2)) := by
  have items := items_layout input output (Actor.faultless_of_scan accepted)
  have behind := Actor.State.scan_behind [] 2 (Token.items request.text.toList)
  rw [← Actor.scan, accepted] at behind
  rw [Actor.scan, items]
  exact behind

/-- The warnings about declarations further down are the warnings, further down. -/
theorem idleWarnings_shift (options : Options) (declarations : List Actor.Declaration) (count : Nat) :
    idleWarnings options (declarations.map (Actor.Declaration.shift count)) =
      (idleWarnings options declarations).map (Located.shift count) := by
  have idle : Actor.Declaration.isIdle ∘ Actor.Declaration.shift count = Actor.Declaration.isIdle := rfl
  unfold idleWarnings
  split
  · rw [List.filter_map, idle, List.map_map, List.map_map]
    rfl
  · rfl

/-- The built-in engine makes a file of what passes the scan, and of nothing else. -/
theorem surface_eq_produced_iff {request : Request} {produced : Output} :
    surface request = .produced produced ↔
      ∃ declared, Actor.scan request.text = .ok declared ∧
        produced = ⟨request.layout, idleWarnings request.options declared⟩ := by
  unfold surface
  cases Actor.scan request.text with
  | error fault => simp
  | ok declared => simp [eq_comm]

/-- What the built-in engine makes of a file between paths without newlines declares what the file declares, two lines
    further down; and the engine makes a file of it again, with the same warnings, two lines further down. -/
theorem surface_of_produced (text : String) (input output : Bytes) (options : Options) (produced : Output)
    (inputLine : '\n' ∉ (normalizePath input).toList) (outputLine : '\n' ∉ (normalizePath output).toList)
    (accepted : surface (.ofPaths text input output options) = .produced produced) :
    (∃ declared, Actor.scan text = .ok declared ∧
      Actor.scan produced.text = .ok (declared.map (Actor.Declaration.shift 2))) ∧
    ∀ again there : Bytes, surface (.ofPaths produced.text again there options) =
      .produced ⟨(Request.ofPaths produced.text again there options).layout,
        produced.warnings.map (Located.shift 2)⟩ := by
  obtain ⟨declared, scanned, rfl⟩ := surface_eq_produced_iff.mp accepted
  have below : Actor.scan (Request.ofPaths text input output options).layout =
      .ok (declared.map (Actor.Declaration.shift 2)) :=
    scan_layout (.ofPaths text input output options) inputLine outputLine scanned
  refine ⟨⟨declared, scanned, below⟩, fun again there => ?_⟩
  refine surface_eq_produced_iff.mpr ⟨declared.map (Actor.Declaration.shift 2), below, ?_⟩
  have warnings := idleWarnings_shift options declared 2
  exact congrArg (Output.mk _) warnings.symm

/-- A path of a quote, a backslash, a comment mark and a byte that is no text: the actor of line 1 is found on line 3,
    and the warning that it never waits is told for line 3 when the generated file is translated. -/
theorem surface_of_idle_produced :
    Actor.scan (Request.ofPaths "ACTOR void f() \x7b\x7d" [0x22, 0x5c, 0x2f, 0x2a, 0xff] [0x6f] {}).layout =
        .ok [⟨"f", 3, true, 0⟩] ∧
      ∀ again there : Bytes, ∃ layout, surface (.ofPaths (Request.ofPaths "ACTOR void f() \x7b\x7d"
          [0x22, 0x5c, 0x2f, 0x2a, 0xff] [0x6f] {}).layout again there {}) =
        .produced ⟨layout, [⟨3, "ACTOR f does not contain a wait() statement"⟩]⟩ := by
  have scanned : Actor.scan "ACTOR void f() \x7b\x7d" = .ok [⟨"f", 1, true, 0⟩] := by
    decide +kernel
  have warned : (idleWarnings {} [⟨"f", 1, true, 0⟩]).map (Located.shift 2) =
      [⟨3, "ACTOR f does not contain a wait() statement"⟩] := by
    decide +kernel
  have accepted : surface (.ofPaths "ACTOR void f() \x7b\x7d" [0x22, 0x5c, 0x2f, 0x2a, 0xff] [0x6f] {}) =
      .produced ⟨(Request.ofPaths "ACTOR void f() \x7b\x7d" [0x22, 0x5c, 0x2f, 0x2a, 0xff] [0x6f] {}).layout,
        idleWarnings {} [⟨"f", 1, true, 0⟩]⟩ :=
    surface_eq_produced_iff.mpr ⟨_, scanned, rfl⟩
  obtain ⟨⟨declared, same, below⟩, again⟩ := surface_of_produced "ACTOR void f() \x7b\x7d" [0x22, 0x5c, 0x2f, 0x2a, 0xff]
    [0x6f] {} _ (by decide +kernel) (by decide +kernel) accepted
  obtain rfl : _ = declared := Except.ok.inj (scanned.symm.trans same)
  refine ⟨below, fun other there => ?_⟩
  have further := again other there
  simp only [warned] at further
  exact ⟨_, further⟩

end Engine

end ActorSurface
