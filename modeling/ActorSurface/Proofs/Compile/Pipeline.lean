import ActorSurface.Compile
import ActorSurface.Proofs.Publish.Steps
import ActorSurface.Proofs.Sink
import ActorSurface.Proofs.Text.Lines

/-!
What a compile run asks of its engine, how it ends, and what it reports. The work of a run goes one of five ways
(`Course`), by what reading, the engine and the publication answer on the files as the run finds them. Which way it
goes decides the request, the status and every line on the error stream (`run_pipeline`): the warnings come first,
and then one record of the failure, if there is one. A run goes on in the same way whether its streams take these lines
or not (`heedless_run`).
-/

namespace ActorSurface

/-- What is read is the content of the file to which the path leads. -/
theorem FileSystem.readText_of_lookUp {files : FileSystem} {path content : Bytes} {location : Location} {mode : Mode}
    {text : String} (found : files.lookUp .content path = .ok (location, .file mode content))
    (admitted : files.admits Mode.ownerRead mode = true) (decoded : Utf8.decode? content = some text) :
    files.readText path = .ok text := by
  unfold readText
  rw [found]
  simp [bind, Except.bind, admitted, decoded]

/-- The world with some more text on its error stream. -/
def World.told (world : World) (text : String) : World :=
  { world with errors := { world.errors with held := world.errors.held ++ Utf8.encode text } }

theorem World.told_told (world : World) (text more : String) : (world.told text).told more = world.told (text ++ more) := by
  simp [told, Utf8.encode_append, List.append_assoc]

theorem World.errors_told {one other : World} (same : one.errors = other.errors) (text : String) :
    (one.told text).errors = (other.told text).errors := by
  simp [told, same]

namespace Compile

open FileSystem (Location)

open Publish (Intent Writes)

/-! ### Records -/

/-- The line that a warning makes on the error stream. -/
def warningRecord (file : String) (finding : Warning) : String :=
  file ++ "(" ++ toString finding.line ++ "): warning: " ++ finding.value ++ "\n"

/-- The line that a failure makes on the error stream. -/
def errorRecord (file : String) : Failure → String
  | .source line message => file ++ "(" ++ toString line ++ "): error FAC1000: " ++ message ++ "\n"
  | .internal details => file ++ "(1): error FAC2000: Internal " ++ details ++ "\n"

/-- All records of a run about a file: those of the warnings, and then that of the failure, if there is one. -/
def records (file : String) (warnings : List Warning) (failure : Option Failure) : String :=
  String.join (warnings.map (warningRecord file)) ++ failure.elim "" (errorRecord file)

theorem text_warning (file : String) (finding : Warning) :
    (Diagnostic.warning finding).text file ++ "\n" = warningRecord file finding := by
  simp [warningRecord, Diagnostic.text, Diagnostic.place, String.append_assoc]

theorem text_error (file : String) (failure : Failure) :
    (Diagnostic.error failure).text file ++ "\n" = errorRecord file failure := by
  cases failure with
  | source line message =>
    simp [errorRecord, Diagnostic.text, Diagnostic.place, Failure.line, Failure.code, Failure.message,
      String.append_assoc]
  | internal details =>
    have first : toString 1 = "1" := rfl
    have opening : "(1): error FAC2000: Internal " =
      "(" ++ "1" ++ "): " ++ "error " ++ "FAC2000" ++ ": " ++ "Internal " := rfl
    simp only [errorRecord, Diagnostic.text, Diagnostic.place, Failure.line, Failure.code, Failure.message, first,
      opening, String.append_assoc]

theorem records_nil (file : String) (failure : Failure) :
    records file [] (some failure) = errorRecord file failure := by
  simp [records]

theorem records_none_append (file : String) (warnings : List Warning) (failure : Failure) :
    records file warnings none ++ errorRecord file failure = records file warnings (some failure) := by
  simp [records]

/-- A report on a stream that accepts it is one record more. -/
theorem run_report (invocation : Invocation) (diagnostic : Diagnostic) {world : World}
    (accepts : world.errors.room = none) :
    (report invocation diagnostic : Program Location Unit).run world =
      ((), world.told (diagnostic.text invocation.file ++ "\n")) := by
  have wrote := Sink.writeLine_of_unlimited accepts (diagnostic.text invocation.file)
  unfold report
  rw [Program.run_bind, Program.run_ofCall, Program.run_pure]
  simp only [Call.run, wrote, World.told]

/-- Warnings are recorded in order. -/
theorem run_warnings (invocation : Invocation) (findings : List Warning) {world : World}
    (accepts : world.errors.room = none) :
    (findings.forM fun finding => report invocation (.warning finding) : Program Location PUnit).run world =
      ((), world.told (records invocation.file findings none)) := by
  induction findings generalizing world with
  | nil =>
    simp [records, World.told, Utf8.encode]
  | cons finding findings ih =>
    change (report invocation (.warning finding) >>= fun _ =>
      findings.forM fun finding => report invocation (.warning finding) : Program Location PUnit).run world = _
    have joined : records invocation.file (finding :: findings) none =
        warningRecord invocation.file finding ++ records invocation.file findings none := by
      simp [records]
    rw [Program.run_bind, run_report invocation _ accepts, text_warning, joined, ← World.told_told]
    exact ih accepts

/-! ### Dropped reports -/

section

variable (engine : Engine) (writes : Writes) (invocation : Invocation)

/-- No report is heeded: what follows it is the same where the stream does not take it. -/
theorem heedless_report (diagnostic : Diagnostic) : (report invocation diagnostic : Program Location Unit).Heedless :=
  .print (.pure ())

theorem heedless_publishOutput (output : Engine.Output) :
    (publishOutput writes invocation output : Program Location (Except Failure Unit)).Heedless :=
  (Publish.silent_publish _ _).heedless.bind fun _ => .pure _

theorem heedless_generate (request : Engine.Request) :
    (generate engine writes invocation request : Program Location (Except Failure Unit)).Heedless := by
  unfold generate
  cases (engine request).result with
  | error failure => exact .pure _
  | ok output =>
    have reports := Program.Heedless.forM (fun finding => heedless_report invocation (.warning finding)) output.warnings
    exact reports.bind fun _ => heedless_publishOutput writes invocation output

theorem heedless_fail (failure : Failure) : (fail invocation failure : Program Location ExitStatus).Heedless := by
  have discards := (Publish.silent_discard (.ofTarget invocation.output)).heedless
  have retracts := (Publish.silent_retract (.ofTarget invocation.output)).heedless
  have reports := heedless_report invocation (.error failure)
  exact discards.bind fun _ => retracts.bind fun _ => reports.bind fun _ => .pure _

theorem heedless_conclude (result : Except Failure Unit) :
    (conclude invocation result : Program Location ExitStatus).Heedless := by
  cases result with
  | error failure => exact heedless_fail invocation failure
  | ok value => exact .pure _

/-- Whether its streams take what it reports has no part in a run. -/
theorem heedless_run : (run engine writes invocation : Program Location Report).Heedless := by
  refine Program.Heedless.bind (.ofCall rfl) fun answer => ?_
  cases answer with
  | error fault => exact (heedless_fail invocation _).bind fun _ => .pure _
  | ok text =>
    refine (heedless_generate engine writes invocation _).bind fun result => ?_
    exact (heedless_conclude invocation result).bind fun _ => .pure _

end

/-! ### Courses -/

/-- How a run ends by its failure, if there is one. -/
def statusOf (failure : Option Failure) : ExitStatus :=
  failure.elim .success Failure.exitStatus

/-- What an engine is asked about a text. -/
def asked (invocation : Invocation) (text : String) : Engine.Request :=
  ⟨text, normalizePath invocation.input, normalizePath invocation.output,
    ⟨!invocation.flags.disableActorWithoutWaitWarning⟩⟩

/-- What publishing the output of an engine at the path of an invocation answers. -/
def publication (writes : Writes) (invocation : Invocation) (world : World) (output : Engine.Output) :
    Except Publish.Fault Unit :=
  ((Publish.publish (.ofTarget invocation.output) (writes (Utf8.encode output.text)) :
    Program Location (Except Publish.Fault Unit)).run world).1

/-- The ways that the work of a run can go: what the engine is asked, the warnings that are reported, and the failure,
    if there is one. -/
inductive Course (engine : Engine) (writes : Writes) (invocation : Invocation) (world : World) :
    Option Engine.Request → List Warning → Option Failure → Prop
  | unread {fault : FileSystem.Fault} : world.files.readText invocation.input = .error fault →
      Course engine writes invocation world none []
        (some (.internal ("reading " ++ invocation.file ++ ": " ++ fault.message)))
  | refused {text : String} {failure : Failure} : world.files.readText invocation.input = .ok text →
      engine (asked invocation text) = .failed failure →
      Course engine writes invocation world (some (asked invocation text)) [] (some failure)
  | panicked {text : String} {message : Option String} : world.files.readText invocation.input = .ok text →
      engine (asked invocation text) = .panicked message →
      Course engine writes invocation world (some (asked invocation text)) []
        (some (.internal ("translation engine panicked: " ++ message.getD "unknown panic")))
  | unpublished {text : String} {output : Engine.Output} {fault : Publish.Fault} :
      world.files.readText invocation.input = .ok text → engine (asked invocation text) = .produced output →
      publication writes invocation world output = .error fault →
      Course engine writes invocation world (some (asked invocation text)) output.warnings
        (some (.internal (fault.step.description (.ofTarget invocation.output) ++ ": " ++ fault.cause.message)))
  | published {text : String} {output : Engine.Output} : world.files.readText invocation.input = .ok text →
      engine (asked invocation text) = .produced output → publication writes invocation world output = .ok () →
      Course engine writes invocation world (some (asked invocation text)) output.warnings none

section

variable {engine : Engine} {writes : Writes} {invocation : Invocation} {world : World}

/-- A run that fails records the failure last, and prints nothing else. -/
theorem run_fail (failure : Failure) (accepts : world.errors.room = none) :
    ∃ after, (fail invocation failure : Program Location ExitStatus).run world = (statusOf (some failure), after) ∧
      after.output = world.output ∧ after.errors = (world.told (errorRecord invocation.file failure)).errors := by
  obtain ⟨output, errors⟩ := (Publish.silent_discard (.ofTarget invocation.output)).run_streams world
  obtain ⟨outputBehind, errorsBehind⟩ := (Publish.silent_retract (.ofTarget invocation.output)).run_streams
    ((Publish.discard (.ofTarget invocation.output) : Program Location Unit).run world).2
  have kept := errorsBehind.trans errors
  unfold fail
  rw [Program.run_bind, Program.run_bind, Program.run_bind, Program.run_pure,
    run_report invocation _ (by rw [kept, accepts]), text_error]
  refine ⟨_, rfl, outputBehind.trans output, ?_⟩
  simp only [World.told, kept]

/-- An engine that fails ends the work of a run. -/
theorem run_generate_of_error {request : Engine.Request} {failure : Failure}
    (fails : (engine request).result = .error failure) :
    (generate engine writes invocation request : Program Location (Except Failure Unit)).run world =
      (.error failure, world) := by
  unfold generate
  rw [fails]
  rfl

/-- The work on an output reports its warnings and publishes its text. -/
theorem run_generate_of_produced {request : Engine.Request} {output : Engine.Output}
    (produced : engine request = .produced output) (world : World) :
    let told := ((output.warnings.forM fun finding => report invocation (.warning finding) :
      Program Location PUnit).run world).2
    let published := (Publish.publish (.ofTarget invocation.output) (writes (Utf8.encode output.text)) :
      Program Location (Except Publish.Fault Unit)).run told
    (generate engine writes invocation request : Program Location (Except Failure Unit)).run world =
      (published.1.mapError (·.failure (.ofTarget invocation.output)), published.2) := by
  intro told published
  unfold generate
  simp only [produced, Engine.Outcome.result]
  rw [Program.run_bind]
  unfold publishOutput
  rw [Program.run_bind, Program.run_pure]

/-- An engine that produces an output has its warnings recorded, and its text published as on the files before. -/
theorem run_generate {request : Engine.Request} {output : Engine.Output} (produced : engine request = .produced output)
    (accepts : world.errors.room = none) :
    ∃ after, (generate engine writes invocation request : Program Location (Except Failure Unit)).run world =
        ((publication writes invocation world output).mapError (·.failure (.ofTarget invocation.output)), after) ∧
      after.output = world.output ∧
      after.errors = (world.told (records invocation.file output.warnings none)).errors := by
  have silent := Publish.silent_publish (.ofTarget invocation.output) (writes (Utf8.encode output.text))
  have same : (world.told (records invocation.file output.warnings none)).files = world.files := rfl
  obtain ⟨answer, -⟩ := silent.heedless.run_of_same_files same
  rw [run_generate_of_produced produced, run_warnings invocation _ accepts, answer]
  exact ⟨_, rfl, silent.run_streams _⟩

/-- A run that reads its input asks its engine, and ends by the result of its work. -/
theorem run_of_generate {text : String} {result : Except Failure Unit} {middle : World}
    (read : world.files.readText invocation.input = .ok text)
    (works : (generate engine writes invocation (asked invocation text) :
      Program Location (Except Failure Unit)).run world = (result, middle)) :
    (run engine writes invocation : Program Location Report).run world =
      (⟨((conclude invocation result).run middle).1, some (asked invocation text)⟩,
        ((conclude invocation result).run middle).2) := by
  have generated : (generate engine writes invocation
      (.ofPaths text invocation.input invocation.output invocation.engineOptions) :
      Program Location (Except Failure Unit)).run world = (result, middle) := works
  unfold run
  rw [Program.run_bind, Program.run_ofCall, Call.run_readText, read]
  simp only [Program.run_bind, Program.run_pure, generated]
  rfl

/-- A run goes one of the ways, and its report and both streams tell which. -/
theorem exists_course (engine : Engine) (writes : Writes) (invocation : Invocation) (accepts : world.errors.room = none) :
    ∃ request warnings failure after,
      (run engine writes invocation : Program Location Report).run world = (⟨statusOf failure, request⟩, after) ∧
      Course engine writes invocation world request warnings failure ∧ after.output = world.output ∧
      after.errors = (world.told (records invocation.file warnings failure)).errors := by
  cases read : world.files.readText invocation.input with
  | error fault =>
    obtain ⟨after, fails, output, errors⟩ := run_fail (readingFailure invocation fault) accepts
    rw [← records_nil] at errors
    refine ⟨none, [], some (readingFailure invocation fault), after, ?_, .unread read, output, errors⟩
    unfold run
    rw [Program.run_bind, Program.run_ofCall, Call.run_readText, read]
    simp only [Program.run_bind, Program.run_pure, fails]
  | ok text =>
    -- Without an output the run ends on the world that it found.
    have refuses : ∀ failure, (engine (asked invocation text)).result = .error failure →
        ∃ after, (run engine writes invocation : Program Location Report).run world =
            (⟨statusOf (some failure), some (asked invocation text)⟩, after) ∧ after.output = world.output ∧
          after.errors = (world.told (records invocation.file [] (some failure))).errors := by
      intro failure refused
      obtain ⟨after, fails, output, errors⟩ := @run_fail invocation world failure accepts
      refine ⟨after, ?_, output, by rw [records_nil, errors]⟩
      rw [run_of_generate read (run_generate_of_error refused)]
      simp only [conclude, fails]
    cases ended : engine (asked invocation text) with
    | failed failure =>
      obtain ⟨after, ran, others⟩ := refuses failure (by rw [ended]; rfl)
      exact ⟨_, [], some failure, after, ran, .refused read ended, others⟩
    | panicked message =>
      obtain ⟨after, ran, others⟩ := refuses _ (by rw [ended]; rfl)
      exact ⟨_, [], _, after, ran, .panicked read ended, others⟩
    | produced output =>
      obtain ⟨middle, works, kept, told⟩ := @run_generate engine writes invocation world _ _ ended accepts
      cases answer : publication writes invocation world output with
      | ok value =>
        rw [answer] at works
        refine ⟨_, output.warnings, none, middle, ?_, .published read ended answer, kept, told⟩
        rw [run_of_generate read works]
        rfl
      | error fault =>
        rw [answer] at works
        have accepting : middle.errors.room = none := by
          rw [told]
          exact accepts
        obtain ⟨after, fails, outputBehind, errors⟩ :=
          @run_fail invocation middle (fault.failure (.ofTarget invocation.output)) accepting
        refine ⟨_, output.warnings, some (fault.failure (.ofTarget invocation.output)), after, ?_,
          .unpublished read ended answer, outputBehind.trans kept, ?_⟩
        · rw [run_of_generate read works]
          simp only [conclude, Except.mapError, fails]
        · rw [errors, World.errors_told told, World.told_told, records_none_append]

end

/-! ### What a course tells -/

namespace Course

variable {engine : Engine} {writes : Writes} {invocation : Invocation} {world : World} {request : Option Engine.Request}
  {warnings : List Warning} {failure : Option Failure}

/-- The engine is asked about a text just where the input is that text. -/
theorem request_eq_some_iff (course : Course engine writes invocation world request warnings failure)
    (made : Engine.Request) :
    request = some made ↔ ∃ text, world.files.readText invocation.input = .ok text ∧ made = asked invocation text := by
  cases course with
  | unread read => simp [read]
  | refused read _ => simp [read, eq_comm]
  | panicked read _ => simp [read, eq_comm]
  | unpublished read _ _ => simp [read, eq_comm]
  | published read _ _ => simp [read, eq_comm]

/-- A run succeeds just where its three parts do. -/
theorem success_iff (course : Course engine writes invocation world request warnings failure) :
    statusOf failure = .success ↔ ∃ text output, world.files.readText invocation.input = .ok text ∧
      engine (asked invocation text) = .produced output ∧ publication writes invocation world output = .ok () := by
  cases course with
  | unread read => simp [read, statusOf, Failure.exitStatus]
  | @refused _ failure read ended => cases failure <;> simp [read, ended, statusOf, Failure.exitStatus]
  | panicked read ended => simp [read, ended, statusOf, Failure.exitStatus]
  | unpublished read ended answer => simp [read, ended, answer, statusOf, Failure.exitStatus]
  | published read ended answer => simp [read, ended, answer, statusOf]

/-- A run ends in a source error just where the engine blames the source. -/
theorem sourceError_iff (course : Course engine writes invocation world request warnings failure) :
    statusOf failure = .sourceError ↔ ∃ text line message, world.files.readText invocation.input = .ok text ∧
      engine (asked invocation text) = .failed (.source line message) := by
  cases course with
  | unread read => simp [read, statusOf, Failure.exitStatus]
  | @refused _ failure read ended => cases failure <;> simp [read, ended, statusOf, Failure.exitStatus]
  | panicked read ended => simp [read, ended, statusOf, Failure.exitStatus]
  | unpublished read ended answer => simp [read, ended, statusOf, Failure.exitStatus]
  | published read ended answer => simp [read, ended, statusOf]

end Course

theorem statusOf_cases (failure : Option Failure) :
    statusOf failure = .success ∨ statusOf failure = .sourceError ∧ (statusOf failure).code = 1 ∨
      statusOf failure = .internalError ∧ (statusOf failure).code = 3 := by
  cases failure with
  | none => exact .inl rfl
  | some failure =>
    cases failure with
    | source line message => exact .inr (.inl ⟨rfl, rfl⟩)
    | internal details => exact .inr (.inr ⟨rfl, rfl⟩)

/-- Of an engine, a run uses only the answer to the one request that it makes. -/
theorem run_of_same_answer {engine other : Engine} (writes : Writes) (invocation : Invocation) {world : World}
    (same : ∀ text, world.files.readText invocation.input = .ok text →
      other (asked invocation text) = engine (asked invocation text)) :
    (run other writes invocation : Program Location Report).run world = (run engine writes invocation).run world := by
  cases read : world.files.readText invocation.input with
  | error fault =>
    unfold run
    rw [Program.run_bind, Program.run_bind, Program.run_ofCall, Call.run_readText, read]
  | ok text =>
    have works : (generate other writes invocation (asked invocation text) : Program Location (Except Failure Unit)) =
        generate engine writes invocation (asked invocation text) := by
      unfold generate
      rw [same text read]
    rw [run_of_generate read rfl, run_of_generate read rfl, works]

/-- What a run does on a stream that accepts everything. The engine is asked once if the input is text, about that
    text, and the run rests on nothing else that the engine would answer. The run succeeds where reading, the engine
    and the publication do, ends in a source error where the engine blames the source, and in an internal error
    otherwise. The error stream gets the records of the course that the run took, and the other stream nothing. -/
theorem run_pipeline (engine : Engine) (writes : Writes) (invocation : Invocation) (world : World)
    (accepts : world.errors.room = none) :
    let (report, after) := (run engine writes invocation : Program Location Report).run world
    (∀ request, report.request = some request ↔ ∃ text, world.files.readText invocation.input = .ok text ∧
      request = ⟨text, normalizePath invocation.input, normalizePath invocation.output,
        ⟨!invocation.flags.disableActorWithoutWaitWarning⟩⟩) ∧
    (∀ other : Engine, (∀ request, report.request = some request → other request = engine request) →
      (run other writes invocation : Program Location Report).run world = (report, after)) ∧
    (report.status = .success ↔ ∃ text output, world.files.readText invocation.input = .ok text ∧
      engine (asked invocation text) = .produced output ∧ publication writes invocation world output = .ok ()) ∧
    (report.status = .sourceError ↔ ∃ text line message, world.files.readText invocation.input = .ok text ∧
      engine (asked invocation text) = .failed (.source line message)) ∧
    (report.status = .success ∨ report.status = .sourceError ∧ report.status.code = 1 ∨
      report.status = .internalError ∧ report.status.code = 3) ∧
    ∃ warnings failure, Course engine writes invocation world report.request warnings failure ∧
      report.status = statusOf failure ∧ after.output = world.output ∧
      after.errors.held = world.errors.held ++ Utf8.encode (records invocation.file warnings failure) := by
  obtain ⟨request, warnings, failure, after, ran, course, output, errors⟩ :=
    exists_course engine writes invocation accepts
  rw [ran]
  refine ⟨course.request_eq_some_iff, fun other same => ?_, course.success_iff, course.sourceError_iff,
    statusOf_cases failure, warnings, failure, course, rfl, output, by rw [errors]; rfl⟩
  rw [← ran]
  refine run_of_same_answer writes invocation fun text read => ?_
  exact same _ ((course.request_eq_some_iff _).mpr ⟨text, read, rfl⟩)

/-- A text with a warning is not published over a directory: the warning is recorded, and then the failure. -/
theorem directory_output_recorded :
    let files := ((FileSystem.empty [0x77] true).put [[0x69], [0x77]] (.file FileSystem.Mode.newFile [0x61])).put
      [[0x6F], [0x77]] (.directory FileSystem.Mode.newDirectory)
    let world : World := ⟨files, .unlimited, .unlimited⟩
    let (report, after) := (run (fun _ => .produced ⟨"t", [⟨7, "w"⟩]⟩) Publish.inOneWrite ⟨[0x69], [0x6F], {}⟩ :
      Program Location Report).run world
    world.errors.room = none ∧ report.status = .internalError ∧ report.status.code = 3 ∧
      after.errors.held = Utf8.encode ("i(7): warning: w\n" ++
        "i(1): error FAC2000: Internal removing previous o: Is a directory (os error 21)\n") := by
  intro files world
  have file : Invocation.file ⟨[0x69], [0x6F], {}⟩ = "i" := by decide +kernel
  have described : Publish.Step.removing.description (.ofTarget [0x6F]) = "removing previous o" := by decide +kernel
  have read : world.files.readText [0x69] = .ok "a" :=
    FileSystem.readText_of_lookUp rfl rfl (by decide +kernel)
  have refused : publication Publish.inOneWrite ⟨[0x69], [0x6F], {}⟩ world ⟨"t", [⟨7, "w"⟩]⟩ =
    .error ⟨.removing, .system .isDirectory⟩ := by rfl
  have piped := run_pipeline (fun _ => .produced ⟨"t", [⟨7, "w"⟩]⟩) Publish.inOneWrite ⟨[0x69], [0x6F], {}⟩ world rfl
  generalize (run (fun _ => .produced ⟨"t", [⟨7, "w"⟩]⟩) Publish.inOneWrite ⟨[0x69], [0x6F], {}⟩ :
    Program Location Report).run world = ran at piped ⊢
  obtain ⟨⟨ended, request⟩, after⟩ := ran
  obtain ⟨-, -, -, -, -, warnings, failure, course, status, -, held⟩ := piped
  cases course with
  | unread failed => cases failed.symm.trans read
  | refused _ ended => cases ended
  | panicked _ ended => cases ended
  | unpublished _ ended answer =>
    cases ended
    have same := answer.symm.trans refused
    obtain rfl := Except.error.inj same
    refine ⟨rfl, status, ?_, ?_⟩
    · rw [status]
      rfl
    · refine held.trans (congrArg Utf8.encode ?_)
      rw [file, described]
      rfl
  | published _ ended answer =>
    cases ended
    cases answer.symm.trans refused

end Compile

end ActorSurface
