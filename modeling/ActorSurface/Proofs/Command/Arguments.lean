import ActorSurface.Command
import ActorSurface.Proofs.Compile.Muting
import ActorSurface.Proofs.Engine.Regeneration
import ActorSurface.Proofs.Text.Decoding

/-!
The arguments behind the two paths. All that they tell is whether one of them is the flag, byte for byte, whatever a
parser makes of double dashes (`Parser.Faithful.contains_iff`); and the flag silences warnings, and does nothing else
(`run_of_further_arguments`).
-/

namespace ActorSurface

open FileSystem (Location)

open Compile (Course records statusOf)

/-! ### Flags -/

namespace Flag

/-- The argument that is a flag. -/
def bytes (flag : Flag) : Bytes :=
  Utf8.encode flag.spelling

theorem ofArgument?_bytes (flag : Flag) : ofArgument? flag.bytes = some flag := by
  cases flag
  decide +kernel

/-- An argument spells a flag just where it is that flag, byte for byte. -/
theorem ofArgument?_eq_some_iff {argument : Bytes} {flag : Flag} :
    ofArgument? argument = some flag ↔ argument = flag.bytes := by
  constructor
  · intro spells
    obtain ⟨text, decoded, found⟩ := Option.bind_eq_some_iff.mp spells
    unfold ofText? at found
    split_ifs at found with spelled
    cases found
    rw [← Utf8.encode_of_decode? decoded, spelled]
    rfl
  · rintro rfl
    exact ofArgument?_bytes flag

end Flag

namespace Flags

/-- Two sets with the same flags are equal. -/
theorem ext_contains {one other : Flags} (same : ∀ flag, one.contains flag = true ↔ other.contains flag = true) :
    one = other := by
  rw [Flags.mk.injEq, Bool.eq_iff_iff]
  exact same .disableActorWithoutWaitWarning

theorem contains_insert {flags : Flags} {flag put : Flag} :
    (flags.insert put).contains flag = true ↔ flag = put ∨ flags.contains flag = true := by
  cases flag
  cases put
  simp [insert, contains]

theorem contains_foldl {found : List Flag} {flags : Flags} {flag : Flag} :
    (found.foldl insert flags).contains flag = true ↔ flag ∈ found ∨ flags.contains flag = true := by
  induction found generalizing flags with
  | nil => simp
  | cons put rest ih => rw [List.foldl_cons, ih, contains_insert, List.mem_cons, or_left_comm, or_assoc]

/-- A flag is found just where it is among the tokens, byte for byte. -/
theorem contains_ofTokens {tokens : List Bytes} {flag : Flag} :
    (ofTokens tokens).contains flag = true ↔ flag.bytes ∈ tokens := by
  have empty : ({} : Flags).contains flag = false := by
    cases flag
    rfl
  unfold ofTokens
  rw [contains_foldl, List.mem_filterMap, empty]
  simp [Flag.ofArgument?_eq_some_iff]

end Flags

/-! ### Parsers -/

namespace Parser

/-- The argument that ends the options of a command line. -/
def dashes : Bytes :=
  Utf8.encode "--"

/-- A parser that makes up no tokens, and loses none: what it finds are the arguments in order, but for double
    dashes. -/
def Faithful (parser : Parser) : Prop :=
  ∀ further tokens, parser further = some tokens → tokens.filter (· ≠ dashes) = further.filter (· ≠ dashes)

variable {parser : Parser}

theorem Faithful.mem_tokens_iff (faithful : parser.Faithful) {token : Bytes} (different : token ≠ dashes)
    (further : List Bytes) : token ∈ parser.tokens further ↔ token ∈ further := by
  unfold tokens
  cases found : parser further with
  | none => rfl
  | some tokens =>
    have same := faithful further tokens found
    have kept : ∀ list : List Bytes, token ∈ list.filter (· ≠ dashes) ↔ token ∈ list := by
      simp [List.mem_filter, different]
    rw [Option.getD_some, ← kept tokens, same, kept]

/-- A flag is set just where it is among the arguments. -/
theorem Faithful.contains_iff (faithful : parser.Faithful) (further : List Bytes) (flag : Flag) :
    (Flags.ofTokens (parser.tokens further)).contains flag = true ↔ flag.bytes ∈ further := by
  have different : flag.bytes ≠ dashes := by
    cases flag
    decide +kernel
  rw [Flags.contains_ofTokens, faithful.mem_tokens_iff different]

/-- The parser that takes a double dash at the front for no token. -/
def behindDashes : Parser
  | [] => some []
  | first :: rest => some (if first = dashes then rest else first :: rest)

theorem faithful_behindDashes : behindDashes.Faithful := by
  intro further tokens found
  cases further with
  | nil =>
    cases found
    rfl
  | cons first rest =>
    cases found
    split_ifs with leads
    · simp [leads]
    · rfl

end Parser

/-! ### The engine -/

namespace Engine

/-- Of the options, the engine takes nothing but which warnings to give. -/
theorem sameButWarnings_surface (request : Request) (options : Options) :
    (surface request).SameButWarnings (surface { request with options }) := by
  unfold surface
  cases Actor.scan request.text with
  | error fault => exact .failed
  | ok declarations => exact .produced

/-- Where the options silence them, there are no warnings. -/
theorem warnings_surface_of_silent {request : Request} {output : Output}
    (silent : request.options.warnActorWithoutWait = false) (produced : surface request = .produced output) :
    output.warnings = [] := by
  obtain ⟨declared, -, rfl⟩ := surface_eq_produced_iff.mp produced
  simp [idleWarnings, silent]

end Engine

namespace Command

section

variable (parser : Parser) (input output : Bytes) (further : List Bytes) (world : World)

/-- The invocation of two paths and further arguments. -/
def invoked : Invocation :=
  ⟨input, output, .ofTokens (parser.tokens further)⟩

/-- The world once the arguments are shown. -/
def shown : World :=
  { world with output := (world.output.writeLine (Invocation.echo (input :: output :: further))).2 }

/-- Behind two paths, the command shows its arguments and compiles. -/
theorem run_paths {report : Compile.Report} {after : World}
    (compiles : (Compile.run Engine.surface Publish.inOneWrite (invoked parser input output further) :
      Program Location Compile.Report).run (shown input output further world) = (report, after)) :
    (runWith parser (input :: output :: further) : Program Location ExitStatus).run world =
      (report.status, after) := by
  change (do
    let _ ← Program.ofCall (.print .output (Invocation.echo (input :: output :: further)))
    let report ← Compile.run Engine.surface Publish.inOneWrite (invoked parser input output further)
    return report.status : Program Location ExitStatus).run world = _
  rw [Program.run_bind, Program.run_bind]
  exact congrArg (fun ran : Compile.Report × World => (ran.1.status, ran.2)) compiles

/-- Where the error stream accepts everything, the course of the compilation tells how the command ends, and what stands
    on that stream. -/
theorem exists_course_of_paths (accepts : world.errors.room = none) :
    ∃ request warnings failure after,
      (runWith parser (input :: output :: further) : Program Location ExitStatus).run world =
        (statusOf failure, after) ∧
      Course Engine.surface Publish.inOneWrite (invoked parser input output further) world request warnings failure ∧
      after.errors = (world.told (records (Utf8.lossy input) warnings failure)).errors := by
  have accepting : (shown input output further world).errors.room = none := accepts
  have same : world.files = (shown input output further world).files := rfl
  obtain ⟨request, warnings, failure, after, compiles, course, -, errors⟩ :=
    Compile.exists_course Engine.surface Publish.inOneWrite (invoked parser input output further) accepting
  exact ⟨request, warnings, failure, after, run_paths parser input output further world compiles,
    course.of_same_files same, errors⟩

/-- Whatever the further arguments, the command leaves the same files. -/
theorem files_of_paths (other : List Bytes) :
    ((runWith parser (input :: output :: further) : Program Location ExitStatus).run world).2.files =
      ((runWith parser (input :: output :: other) : Program Location ExitStatus).run world).2.files := by
  have same : ∀ text, (Engine.surface (Compile.asked (invoked parser input output further) text)).SameButWarnings
      (Engine.surface (Compile.asked (invoked parser input output other) text)) :=
    fun text => Engine.sameButWarnings_surface _ _
  have agrees : Program.Agree (fun report twin => report.status = twin.status)
      (Compile.run Engine.surface Publish.inOneWrite (invoked parser input output further))
      (Compile.run Engine.surface Publish.inOneWrite (invoked parser input output other)) :=
    Compile.agree_run _ same
  rw [run_paths parser input output further world rfl, run_paths parser input output other world rfl]
  exact (agrees (shown input output further world) (shown input output other world) rfl).2

end

/-- Two runs with the same paths and any further arguments end with the same exit code and leave the same files. Their
    error streams are the same where both or neither are given the flag. Where one of them is, its error stream is that
    of the other without the records of the warnings. A parser is only asked to make up no tokens, and to lose none but
    double dashes. -/
theorem run_of_further_arguments (parser : Parser) (faithful : parser.Faithful) (input output : Bytes)
    (further other : List Bytes) (files : FileSystem) (stdout : Sink) :
    let silencing := Flag.disableActorWithoutWaitWarning.bytes
    let world : World := ⟨files, stdout, .unlimited⟩
    let (status, after) := (runWith parser (input :: output :: further) : Program Location ExitStatus).run world
    let (otherStatus, otherAfter) :=
      (runWith parser (input :: output :: other) : Program Location ExitStatus).run world
    status.code = otherStatus.code ∧ after.files = otherAfter.files ∧
      ((silencing ∈ further ↔ silencing ∈ other) → after.errors = otherAfter.errors) ∧
      (silencing ∈ further → silencing ∉ other → ∃ request warnings failure,
        Course Engine.surface Publish.inOneWrite ⟨input, output, {}⟩ world request warnings failure ∧
        otherAfter.errors.held = Utf8.encode (records (Utf8.lossy input) warnings failure) ∧
        after.errors.held = Utf8.encode (records (Utf8.lossy input) [] failure)) := by
  intro silencing world
  -- Warnings have no part in how the compilation ends, so that both courses are those of one invocation but for them.
  obtain ⟨request, warnings, failure, after, ran, course, errors⟩ :=
    exists_course_of_paths parser input output further world rfl
  obtain ⟨otherRequest, otherWarnings, otherFailure, otherAfter, otherRan, otherCourse, otherErrors⟩ :=
    exists_course_of_paths parser input output other world rfl
  have files := files_of_paths parser input output further world other
  obtain ⟨made, told, twin⟩ := otherCourse.exists_same (Flags.ofTokens (parser.tokens further))
    fun text => Engine.sameButWarnings_surface _ _
  obtain ⟨-, -, rfl⟩ := course.unique twin
  rw [ran, otherRan] at files ⊢
  refine ⟨rfl, files, fun both => ?_, fun silences keeps => ?_⟩
  · have flags : Flags.ofTokens (parser.tokens further) = .ofTokens (parser.tokens other) := by
      refine Flags.ext_contains fun flag => ?_
      cases flag
      rw [faithful.contains_iff, faithful.contains_iff, both]
    unfold invoked at course otherCourse
    rw [flags] at course
    obtain ⟨-, rfl, -⟩ := course.unique otherCourse
    rw [errors, otherErrors]
  · have silenced := (faithful.contains_iff further .disableActorWithoutWaitWarning).mpr silences
    have bare : Flags.ofTokens (parser.tokens other) = {} := by
      refine Flags.ext_contains fun flag => ?_
      cases flag
      rw [faithful.contains_iff]
      exact iff_of_false keeps Bool.false_ne_true
    obtain rfl := course.warnings_eq_nil fun text output produced =>
      Engine.warnings_surface_of_silent (congrArg not silenced) produced
    unfold invoked at otherCourse
    rw [bare] at otherCourse
    exact ⟨otherRequest, otherWarnings, _, otherCourse, by rw [otherErrors]; rfl, by rw [errors]; rfl⟩

/-- A file with an actor that never waits: the flag behind a double dash silences the warning, and both runs leave the
    same files. -/
theorem idle_actor_silenced :
    let files := (FileSystem.empty [0x77] true).put [[0x69], [0x77]]
      (.file FileSystem.Mode.newFile (Utf8.encode "ACTOR void f() \x7b\x7d"))
    let silencing := Flag.disableActorWithoutWaitWarning.bytes
    let world : World := ⟨files, .unlimited, .unlimited⟩
    let (status, after) := (runWith .behindDashes [[0x69], [0x6F], Parser.dashes, silencing] :
      Program Location ExitStatus).run world
    let (otherStatus, otherAfter) := (runWith .behindDashes [[0x69], [0x6F], [0x2D, 0x78]] :
      Program Location ExitStatus).run world
    Parser.behindDashes.Faithful ∧ status.code = 0 ∧ otherStatus.code = 0 ∧ after.files = otherAfter.files ∧
      otherAfter.errors.held = Utf8.encode "i(1): warning: ACTOR f does not contain a wait() statement\n" ∧
      after.errors.held = [] := by
  intro files silencing world
  have succeeds : ((runWith .behindDashes [[0x69], [0x6F], [0x2D, 0x78]] :
      Program Location ExitStatus).run world).1.code = 0 := by decide +kernel
  have warned : ((runWith .behindDashes [[0x69], [0x6F], [0x2D, 0x78]] :
      Program Location ExitStatus).run world).2.errors.held =
        Utf8.encode "i(1): warning: ACTOR f does not contain a wait() statement\n" := by decide +kernel
  have silent : ((runWith .behindDashes [[0x69], [0x6F], Parser.dashes, silencing] :
      Program Location ExitStatus).run world).2.errors.held = [] := by decide +kernel
  obtain ⟨sameCode, sameFiles, -, -⟩ := run_of_further_arguments .behindDashes Parser.faithful_behindDashes
    [0x69] [0x6F] [Parser.dashes, silencing] [[0x2D, 0x78]] files .unlimited
  exact ⟨Parser.faithful_behindDashes, sameCode.trans succeeds, succeeds, sameFiles, warned, silent⟩

end Command

end ActorSurface
