import ActorSurface.Proofs.Compile.Pipeline
import ActorSurface.Proofs.Publish.Causes

/-!
How many lines the failure of a run takes on the error stream. Its record ends with a newline, and it is one line
only if nothing that it tells has a newline itself: the input path, and then the message of the engine or, where
publishing fails, the output path (`failure_line_iff`). The program takes all of these as they are.
-/

namespace ActorSurface

namespace Compile

open FileSystem (Location)

open Publish (Intent Writes)

open Utf8 (IsLine newline)

/-- What a failure behind a request tells has no newline. -/
def Unbroken (engine : Engine) (invocation : Invocation) (request : Engine.Request) : Prop :=
  match engine request with
  | .failed failure => '\n' ∉ failure.message.toList
  | .panicked message => '\n' ∉ (message.getD "unknown panic").toList
  | .produced _ => newline ∉ invocation.output

theorem newline_mem_file (invocation : Invocation) : '\n' ∈ invocation.file.toList ↔ newline ∈ invocation.input :=
  Utf8.newline_mem_lossy

/-- The description of a step names the target, with or without more behind it. -/
theorem newline_mem_description (step : Publish.Step) (target : Bytes) :
    '\n' ∈ (step.description (.ofTarget target)).toList ↔ newline ∈ target := by
  have staged : newline ∈ (Intent.ofTarget target).temporary ↔ newline ∈ (Intent.ofTarget target).target := by
    have suffix : newline ∉ Utf8.encode Publish.temporarySuffix := by
      rw [Publish.temporarySuffix, Utf8.newline_mem_encode]
      simp
    simp [Intent.ofTarget, suffix]
  change _ ↔ newline ∈ (Intent.ofTarget target).target
  generalize Intent.ofTarget target = intent at staged ⊢
  have named : ∀ opening path, '\n' ∉ opening.toList →
      ('\n' ∈ (opening ++ Utf8.lossy path).toList ↔ newline ∈ path) := by
    intro opening path plain
    rw [String.toList_append, List.mem_append, Utf8.newline_mem_lossy]
    exact or_iff_right plain
  cases step with
  | creating => exact (named "creating " _ (by decide +kernel)).trans staged
  | writing => exact (named "writing " _ (by decide +kernel)).trans staged
  | unprotecting => exact named "unprotecting " _ (by decide +kernel)
  | removing => exact named "removing previous " _ (by decide +kernel)
  | «renaming» =>
    show '\n' ∈ ("renaming " ++ Utf8.lossy intent.temporary ++ " to " ++ Utf8.lossy intent.target).toList ↔ _
    simp [Utf8.newline_mem_lossy, staged]
  | protecting => exact named "protecting " _ (by decide +kernel)

/-- The record of a failure is a line where neither the file nor the message has a newline. -/
theorem isLine_errorRecord (file : String) (failure : Failure) :
    IsLine (Utf8.encode (errorRecord file failure)) ↔ '\n' ∉ file.toList ∧ '\n' ∉ failure.message.toList := by
  rw [← text_error, Utf8.isLine_encode]
  have digits := Utf8.newline_not_mem_digits failure.line
  cases failure with
  | source line message => simp [Diagnostic.text, Diagnostic.place, Failure.code, digits]
  | internal details => simp [Diagnostic.text, Diagnostic.place, Failure.code, digits]

/-- The failure of a run tells the input path, if that cannot be read, and else what the request leads to. -/
theorem Course.unbroken_iff {engine : Engine} {writes : Writes} {invocation : Invocation} {world : World}
    {request : Option Engine.Request} {warnings : List Warning} {failure : Failure}
    (course : Course engine writes invocation world request warnings (some failure)) :
    newline ∉ invocation.input ∧ '\n' ∉ failure.message.toList ↔
      newline ∉ invocation.input ∧ ∀ made, request = some made → Unbroken engine invocation made := by
  refine and_congr_right fun plain => ?_
  cases course with
  | @unread fault read =>
    have cause := FileSystem.Fault.newline_not_mem_message
      (FileSystem.known_readText world.files invocation.input fault read)
    have file : '\n' ∉ invocation.file.toList := fun listed => plain ((newline_mem_file invocation).mp listed)
    simp [Failure.message, cause, file]
  | refused read ended => simp [Unbroken, ended]
  | panicked read ended => simp [Unbroken, ended, Failure.message]
  | unpublished read ended answer =>
    have cause := FileSystem.Fault.newline_not_mem_message (Publish.known_cause answer)
    simp [Unbroken, ended, Failure.message, cause, newline_mem_description]

/-- Behind the warnings, a run that fails writes the record of its failure. It is one line, ended by its only
    newline, just where the input path has no newline and what follows from the request to the engine tells none. -/
theorem failure_line_iff (engine : Engine) (writes : Writes) (invocation : Invocation) (world : World)
    (accepts : world.errors.room = none) :
    let (report, after) := (run engine writes invocation : Program Location Report).run world
    report.status ≠ .success → ∃ warnings failure record,
      Course engine writes invocation world report.request warnings (some failure) ∧
      record = Utf8.encode (errorRecord invocation.file failure) ∧
      after.errors.held = world.errors.held ++ Utf8.encode (records invocation.file warnings none) ++ record ∧
      (IsLine record ↔ newline ∉ invocation.input ∧
        ∀ request, report.request = some request → Unbroken engine invocation request) := by
  obtain ⟨request, warnings, failure, after, ran, course, -, errors⟩ := exists_course engine writes invocation accepts
  rw [ran]
  intro fails
  cases failure with
  | none => exact absurd rfl fails
  | some failure =>
    refine ⟨warnings, failure, _, course, rfl, ?_, ?_⟩
    · rw [errors, ← records_none_append, List.append_assoc, ← Utf8.encode_append]
      rfl
    · rw [isLine_errorRecord, newline_mem_file]
      exact course.unbroken_iff

/-- A panic that tells two lines has both of them written, on a file system of one directory that holds the input. -/
theorem panic_of_two_lines :
    let files := (FileSystem.empty [0x77] true).put [[0x69], [0x77]] (.file FileSystem.Mode.newFile [0x61])
    let world : World := ⟨files, .unlimited, .unlimited⟩
    let (report, after) := (run (fun _ => .panicked (some "a\nb")) Publish.inOneWrite ⟨[0x69], [0x6F], {}⟩ :
      Program Location Report).run world
    world.errors.room = none ∧ report.status ≠ .success ∧
      after.errors.held = Utf8.encode "i(1): error FAC2000: Internal translation engine panicked: a\nb\n" ∧
      ¬ IsLine after.errors.held := by
  intro files world
  have file : Invocation.file ⟨[0x69], [0x6F], {}⟩ = "i" := by decide +kernel
  have read : world.files.readText [0x69] = .ok "a" :=
    FileSystem.readText_of_lookUp rfl rfl (by decide +kernel)
  have counted := failure_line_iff (fun _ => .panicked (some "a\nb")) Publish.inOneWrite ⟨[0x69], [0x6F], {}⟩ world rfl
  have fails : ((run (fun _ => .panicked (some "a\nb")) Publish.inOneWrite ⟨[0x69], [0x6F], {}⟩ :
      Program Location Report).run world).1.status ≠ .success := by decide +kernel
  generalize (run (fun _ => .panicked (some "a\nb")) Publish.inOneWrite ⟨[0x69], [0x6F], {}⟩ :
    Program Location Report).run world = ran at counted fails ⊢
  obtain ⟨⟨status, request⟩, after⟩ := ran
  obtain ⟨warnings, failure, record, course, rfl, held, lines⟩ := counted fails
  cases course with
  | unread failed => cases failed.symm.trans read
  | refused _ ended => cases ended
  | panicked _ ended =>
    cases ended
    have whole : after.errors.held = Utf8.encode (errorRecord "i" (.internal "translation engine panicked: a\nb")) := by
      rw [held, file]
      rfl
    refine ⟨rfl, fails, whole, ?_⟩
    rw [whole, isLine_errorRecord]
    exact fun line => line.2 (by decide +kernel)
  | unpublished _ ended _ => cases ended

/-- That a run whose engine produces nothing writes one line, whatever the engine tells, is not so. -/
theorem not_always_one_line :
    ¬ ∀ (engine : Engine) (invocation : Invocation) (world : World), world.errors = .unlimited →
      (∀ request output, engine request ≠ .produced output) →
      IsLine ((run engine Publish.inOneWrite invocation : Program Location Report).run world).2.errors.held := by
  intro claimed
  have line := claimed (fun _ => .panicked (some "a\nb")) ⟨[0x69], [0x6F], {}⟩
    ⟨(FileSystem.empty [0x77] true).put [[0x69], [0x77]] (.file FileSystem.Mode.newFile [0x61]), .unlimited, .unlimited⟩
    rfl (fun _ _ same => by cases same)
  revert line
  decide +kernel

end Compile

end ActorSurface
