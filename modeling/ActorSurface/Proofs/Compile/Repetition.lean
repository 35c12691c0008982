import ActorSurface.Engine.Surface
import ActorSurface.Proofs.Compile.Outcome
import ActorSurface.Proofs.Compile.Pipeline
import ActorSurface.Proofs.Publish.Repetition

/-!
Running a compilation again. A run that succeeds, with nothing at the temporary path before it, leaves a state from which
the same run does the same: it reads the same text if the input was not the output, its engine answers the same, its
warnings go to the streams whatever the files are, and its publication leads back to the state (`run_again`).
-/

namespace ActorSurface

namespace Compile

open FileSystem (Location Mode)

open Publish (Intent Writes)

section

variable {engine : Engine} {writes : Writes} {invocation : Invocation} {world after : World}

/-- Warnings are told the same on whatever files. -/
theorem run_warnings_with (findings : List Warning) (world : World) (files : FileSystem) :
    (findings.forM fun finding => report invocation (.warning finding) : Program Location PUnit).run
        { world with files } =
      ((), { ((findings.forM fun finding => report invocation (.warning finding) :
        Program Location PUnit).run world).2 with files }) := by
  induction findings generalizing world with
  | nil => rfl
  | cons finding findings ih =>
    have told : ∀ world : World, ((finding :: findings).forM fun finding => report invocation (.warning finding) :
        Program Location PUnit).run world =
          (findings.forM fun finding => report invocation (.warning finding) : Program Location PUnit).run
            ((report invocation (.warning finding)).run world).2 :=
      fun world => Program.run_bind ..
    rw [told, told]
    exact ih ((report invocation (.warning finding) : Program Location Unit).run world).2

/-- Work that succeeds does so again on the files that it leaves. -/
theorem generate_again {request : Engine.Request}
    (absent : world.files.isPresent (Intent.ofTarget invocation.output).temporary = false)
    (succeeds : (generate engine writes invocation request : Program Location (Except Failure Unit)).run world =
      (.ok (), after)) :
    (generate engine writes invocation request : Program Location (Except Failure Unit)).run
        { world with files := after.files } = (.ok (), after) ∧
      ∃ output location, engine request = .produced output ∧
        after.files.lookUp .status invocation.output =
          .ok (location, .file 0o444 (writes (Utf8.encode output.text)).flatten) ∧
        after.files.isPresent (Intent.ofTarget invocation.output).temporary = false := by
  obtain ⟨output, produced, -⟩ := generate_eq_ok succeeds
  have works := @run_generate_of_produced engine writes invocation request output produced
  rw [works] at succeeds
  generalize toldIs : ((output.warnings.forM fun finding => report invocation (.warning finding) :
    Program Location PUnit).run world).2 = told at succeeds
  have sameFiles : told.files = world.files := toldIs ▸ files_reports invocation output.warnings world
  cases published : (Publish.publish (.ofTarget invocation.output) (writes (Utf8.encode output.text)) :
      Program Location (Except Publish.Fault Unit)).run told with
  | mk answer final =>
    rw [published] at succeeds
    cases answer with
    | error fault => cases succeeds
    | ok value =>
      cases succeeds
      obtain ⟨⟨location, found⟩, gone, again⟩ := Publish.publish_again (sameFiles ▸ absent) published
      refine ⟨?_, output, location, produced, found, gone⟩
      rw [works, run_warnings_with, toldIs]
      simp only [again]
      rfl

/-- Where a run fails, so does its report. -/
theorem status_fail (failure : Failure) (world : World) :
    ((fail invocation failure : Program Location ExitStatus).run world).1 ≠ .success := by
  unfold fail
  rw [Program.run_bind, Program.run_bind, Program.run_bind, Program.run_pure]
  exact exitStatus_ne_success failure

/-- A run that succeeds has read a text and done its work, which ends the run. -/
theorem generate_of_success {report : Report}
    (ran : (run engine writes invocation : Program Location Report).run world = (report, after))
    (succeeds : report.status = .success) :
    ∃ text, world.files.readText invocation.input = .ok text ∧ report = ⟨.success, some (asked invocation text)⟩ ∧
      (generate engine writes invocation (asked invocation text) : Program Location (Except Failure Unit)).run world =
        (.ok (), after) := by
  cases read : world.files.readText invocation.input with
  | error fault =>
    unfold run at ran
    rw [Program.run_bind, Program.run_ofCall, Call.run_readText, read] at ran
    simp only [Program.run_bind, Program.run_pure] at ran
    cases ran
    exact absurd succeeds (status_fail _ _)
  | ok text =>
    cases works : (generate engine writes invocation (asked invocation text) :
        Program Location (Except Failure Unit)).run world with
    | mk result middle =>
      rw [run_of_generate read works] at ran
      cases result with
      | error failure =>
        cases ran
        exact absurd succeeds (status_fail _ _)
      | ok value =>
        cases ran
        exact ⟨text, rfl, rfl, works⟩

end

/-- A run that succeeds, and had nothing at the temporary path, succeeds again if the input still reads as the same text,
    whatever was at the output path before it. The second run reports the same and tells the same on both streams, and
    it leaves the files exactly as the first did: the output is a file with the text of the engine that nobody may
    write, and nothing is at the temporary path. -/
theorem run_again (engine : Engine) (writes : Writes) (invocation : Invocation) (world after : World) (report : Report)
    (ran : (run engine writes invocation : Program Location Report).run world = (report, after))
    (absent : world.files.isPresent (Intent.ofTarget invocation.output).temporary = false)
    (succeeds : report.status = .success)
    (sameInput : after.files.readText invocation.input = world.files.readText invocation.input) :
    (run engine writes invocation : Program Location Report).run { world with files := after.files } = (report, after) ∧
    ∃ text output location, world.files.readText invocation.input = .ok text ∧
      engine (asked invocation text) = .produced output ∧
      after.files.lookUp .status invocation.output =
        .ok (location, .file 0o444 (writes (Utf8.encode output.text)).flatten) ∧
      after.files.isPresent (Intent.ofTarget invocation.output).temporary = false := by
  obtain ⟨text, read, rfl, works⟩ := generate_of_success ran succeeds
  obtain ⟨again, output, location, produced, found, gone⟩ := generate_again absent works
  have readAgain : ({ world with files := after.files } : World).files.readText invocation.input = .ok text :=
    sameInput.trans read
  refine ⟨?_, text, output, location, read, produced, found, gone⟩
  rw [run_of_generate readAgain again]
  rfl

/-- An actor that never waits is compiled over a link, with a warning, and once more over the file that is there then. -/
theorem compiled_again_over_link :
    let files := ((FileSystem.empty [0x77] true).put [[0x69], [0x77]]
      (.file Mode.newFile (Utf8.encode "ACTOR void f() \x7b\x7d"))).put [[0x6F], [0x77]] (.link [0x69])
    let world : World := ⟨files, .unlimited, .unlimited⟩
    let compile := (run Engine.surface Publish.inOneWrite ⟨[0x69], [0x6F], {}⟩ : Program Location Report)
    let (report, after) := compile.run world
    report.status = .success ∧ compile.run { world with files := after.files } = (report, after) := by
  intro files world compile
  have absent : files.isPresent (Intent.ofTarget [0x6F]).temporary = false := by decide +kernel
  have succeeds : (compile.run world).1.status = .success := by decide +kernel
  have sameInput : (compile.run world).2.files.readText [0x69] = files.readText [0x69] := by decide +kernel
  have again := run_again Engine.surface Publish.inOneWrite ⟨[0x69], [0x6F], {}⟩ world _ _ rfl absent succeeds sameInput
  exact ⟨succeeds, again.1⟩

end Compile

end ActorSurface
