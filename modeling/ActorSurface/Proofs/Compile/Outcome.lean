import ActorSurface.Compile
import ActorSurface.Proofs.Publish.Steps
import ActorSurface.Proofs.Publish.Withdrawal

/-!
How a compile run leaves the files. Either the run succeeds, and the output path leads to the text of the
engine in a file that nobody may write, with nothing under the temporary name; or it fails, and neither the
output nor the temporary name leads to anything but a directory (`run_all_or_nothing`).
-/

namespace ActorSurface

namespace Compile

open FileSystem (Location Mode Sound Gone Carried)

open Publish (Intent Writes)

theorem exitStatus_ne_success (failure : Failure) : failure.exitStatus ≠ .success := by
  cases failure <;> nofun

/-- Reporting leaves the files alone. -/
theorem files_report (invocation : Invocation) (diagnostic : Diagnostic) (world : World) :
    ((report invocation diagnostic : Program Location Unit).run world).2.files = world.files := by
  unfold report
  rw [Program.run_bind, Program.run_ofCall, Program.run_pure]
  exact Call.files_print world .errors _

/-- A run that fails clears both paths away. -/
theorem gone_of_fail (invocation : Invocation) (failure : Failure) (world : World) (sound : Sound world.files) :
    let (status, after) := (fail invocation failure : Program Location ExitStatus).run world
    status = failure.exitStatus ∧ Gone after.files (Intent.ofTarget invocation.output).target ∧
      Gone after.files (Intent.ofTarget invocation.output).temporary := by
  unfold fail
  rw [Program.run_bind, Program.run_bind, Program.run_bind, Program.run_pure]
  have discarded := Publish.gone_discard (Intent.ofTarget invocation.output) world sound
  have soundBehind := sound_run (Publish.discard (Intent.ofTarget invocation.output)) world sound
  obtain ⟨retracted, kept⟩ := Publish.gone_retract (Intent.ofTarget invocation.output) _ soundBehind
  refine ⟨rfl, ?_⟩
  rw [files_report]
  exact ⟨retracted, kept _ discarded⟩

theorem files_reports (invocation : Invocation) (findings : List Warning) (world : World) :
    ((findings.forM fun finding => report invocation (.warning finding) : Program Location PUnit).run world).2.files =
      world.files := by
  induction findings generalizing world with
  | nil => rfl
  | cons finding findings ih =>
    change ((report invocation (.warning finding) >>= fun _ =>
      findings.forM fun finding => report invocation (.warning finding)).run world).2.files = _
    rw [Program.run_bind, ih, files_report]

/-- Work that succeeds has published what the engine produced. -/
theorem generate_eq_ok {engine : Engine} {writes : Writes} {invocation : Invocation} {request : Engine.Request}
    {world after : World}
    (succeeds : (generate engine writes invocation request : Program Location (Except Failure Unit)).run world =
      (.ok (), after)) :
    ∃ output, engine request = .produced output ∧
      Carried (.ofTarget invocation.output) (writes (Utf8.encode output.text)) world.files after.files := by
  unfold generate at succeeds
  cases ended : engine request with
  | failed failure => simp [ended, Engine.Outcome.result] at succeeds
  | panicked message => simp [ended, Engine.Outcome.result] at succeeds
  | produced output =>
    refine ⟨output, rfl, ?_⟩
    simp only [ended, Engine.Outcome.result, Program.run_bind] at succeeds
    unfold publishOutput at succeeds
    simp only [Program.run_bind, Program.run_pure] at succeeds
    rw [← files_reports invocation output.warnings world]
    cases published : (Publish.publish (.ofTarget invocation.output) (writes (Utf8.encode output.text)) :
        Program Location (Except Publish.Fault Unit)).run
          ((output.warnings.forM fun finding => report invocation (.warning finding)).run world).2 with
    | mk answer final =>
      rw [published] at succeeds
      cases answer with
      | error fault => cases succeeds
      | ok value =>
        cases succeeds
        exact Publish.carried_of_publish published

/-- A run ends in one of two ways: it succeeds, and the output path leads to exactly the text that the engine
    produced, in a file that nobody may write, and nothing is under the temporary name; or it does not, and
    neither path leads to anything but a directory. The writes that store a text may split its bytes in any
    way. -/
theorem run_all_or_nothing (engine : Engine) (writes : Writes) (invocation : Invocation) (world : World)
    (sound : Sound world.files) (lossless : ∀ octets, (writes octets).flatten = octets) :
    let intent := Intent.ofTarget invocation.output
    let (report, after) := (run engine writes invocation : Program Location Report).run world
    (report.status = .success ∧ ∃ request output location mode, report.request = some request ∧
        engine request = .produced output ∧
        after.files.lookUp .content intent.target = .ok (location, .file mode (Utf8.encode output.text)) ∧
        mode &&& Mode.allWrite = 0 ∧ after.files.isPresent intent.temporary = false) ∨
      (report.status ≠ .success ∧ Gone after.files intent.target ∧ Gone after.files intent.temporary) := by
  unfold run
  rw [Program.run_bind, Program.run_ofCall, Call.run_readText]
  cases world.files.readText invocation.input with
  | error fault =>
    obtain ⟨status, target, temporary⟩ := gone_of_fail invocation (readingFailure invocation fault) world sound
    simp only [Program.run_bind, Program.run_pure]
    exact .inr ⟨status ▸ exitStatus_ne_success _, target, temporary⟩
  | ok text =>
    simp only [Program.run_bind, Program.run_pure]
    have soundBehind := sound_run (generate engine writes invocation
      (.ofPaths text invocation.input invocation.output invocation.engineOptions)) world sound
    cases generated : (generate engine writes invocation
        (.ofPaths text invocation.input invocation.output invocation.engineOptions) :
        Program Location (Except Failure Unit)).run world with
    | mk answer middle =>
      rw [generated] at soundBehind
      cases answer with
      | error failure =>
        obtain ⟨status, target, temporary⟩ := gone_of_fail invocation failure middle soundBehind
        exact .inr ⟨status ▸ exitStatus_ne_success _, target, temporary⟩
      | ok value =>
        obtain ⟨output, produced, carried⟩ := generate_eq_ok generated
        obtain ⟨location, mode, found, protects, absent⟩ := carried.placed sound.privileged
        rw [lossless] at found
        exact .inl ⟨rfl, _, output, location, mode, rfl, produced, found, protects, absent⟩

/-- A stale output goes when the engine panics, from a file system of one directory that holds it. -/
theorem stale_output_gone :
    let files := (FileSystem.empty [0x77] true).put [[0x6F], [0x77]] (.file Mode.newFile [0x78])
    let after := ((run (fun _ => .panicked none) Publish.inOneWrite ⟨[0x69], [0x6F], {}⟩ :
      Program Location Report).run ⟨files, .unlimited, .unlimited⟩).2
    Sound files ∧ (∀ octets, (Publish.inOneWrite octets).flatten = octets) ∧ Gone after.files [0x6F] ∧
      Gone after.files ([0x6F] ++ Utf8.encode Publish.temporarySuffix) := by
  have sound : Sound ((FileSystem.empty [0x77] true).put [[0x6F], [0x77]] (.file Mode.newFile [0x78])) :=
    (FileSystem.sound_empty [0x77]).put rfl (by decide)
  have lossless : ∀ octets, (Publish.inOneWrite octets).flatten = octets := fun octets => by simp [Publish.inOneWrite]
  refine ⟨sound, lossless, ?_⟩
  rcases run_all_or_nothing (fun _ => .panicked none) Publish.inOneWrite ⟨[0x69], [0x6F], {}⟩
    ⟨_, .unlimited, .unlimited⟩ sound lossless with ⟨-, _, _, _, _, -, produced, -⟩ | ⟨-, gone⟩
  · cases produced
  · exact gone

end Compile

end ActorSurface
