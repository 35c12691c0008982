import ActorSurface.Command
import ActorSurface.Proofs.Compile.Pipeline

/-!
Runs whose output streams stop accepting text. A printed line is answered by whether it was taken, and every other call
goes the same way on streams of any capacity. So does a run, but for the text that does not fit, if its program does not
heed those answers (`Program.Heedless.run_of_cut`); and the command does not (`heedless_runWith`), so that it loses no
more than that text (`run_on_limited_streams`).
-/

namespace ActorSurface

open FileSystem (Location)

/-- A world whose streams have some capacities, beside one whose streams accept everything. -/
structure World.Cut (outputRoom errorsRoom : Nat) (cut whole : World) : Prop where
  files : cut.files = whole.files
  output : Sink.Cut outputRoom cut.output whole.output
  errors : Sink.Cut errorsRoom cut.errors whole.errors

section

variable {outputRoom errorsRoom : Nat} {cut whole : World}

/-- A call that does not print leaves the streams as they are to each other. -/
theorem Call.cut_of_silent {α : Type} {call : Call Location α} (silent : call.isPrint = false)
    (related : World.Cut outputRoom errorsRoom cut whole) :
    World.Cut outputRoom errorsRoom (call.run cut).2 (call.run whole).2 := by
  obtain ⟨output, errors⟩ := call.run_streams silent cut
  obtain ⟨outputWhole, errorsWhole⟩ := call.run_streams silent whole
  refine ⟨call.files_of_same_files related.files, ?_, ?_⟩
  · rw [output, outputWhole]
    exact related.output
  · rw [errors, errorsWhole]
    exact related.errors

/-- A call loses what does not fit. -/
theorem Call.run_of_cut {α : Type} (call : Call Location α) (related : World.Cut outputRoom errorsRoom cut whole) :
    World.Cut outputRoom errorsRoom (call.run cut).2 (call.run whole).2 := by
  cases printing : call.isPrint with
  | false => exact call.cut_of_silent printing related
  | true =>
    cases call with
    | print stream line =>
      cases stream with
      | output => exact ⟨related.files, related.output.writeLine line, related.errors⟩
      | errors => exact ⟨related.files, related.output, related.errors.writeLine line⟩
    | _ => cases printing

/-- A run that does not heed its streams comes to the same, and loses what does not fit. -/
theorem Program.Heedless.run_of_cut {α : Type} {program : Program Location α} (heedless : program.Heedless)
    (related : World.Cut outputRoom errorsRoom cut whole) :
    (program.run cut).1 = (program.run whole).1 ∧
      World.Cut outputRoom errorsRoom (program.run cut).2 (program.run whole).2 :=
  run_related (World.Cut outputRoom errorsRoom) World.Cut.files (fun call _ _ => call.run_of_cut) heedless related

end

namespace Command

/-- Whether its streams take the usage, the arguments or a report has no part in the command. -/
theorem heedless_runWith (parser : Parser) (arguments : List Bytes) :
    (runWith parser arguments : Program Location ExitStatus).Heedless := by
  unfold runWith
  cases Invocation.resolve parser arguments with
  | error error => exact .print (.pure _)
  | ok invocation =>
    exact .print ((Compile.heedless_run Engine.surface Publish.inOneWrite invocation).bind fun _ => .pure _)

/-- Whatever the arguments, on streams of any capacities the command ends in the same way and leaves the same files as on
    streams that accept everything, and each stream holds the front of what it would hold there. -/
theorem run_on_limited_streams (parser : Parser) (arguments : List Bytes) (files : FileSystem)
    (outputRoom errorsRoom : Nat) :
    let command := (runWith parser arguments : Program Location ExitStatus)
    let (status, after) := command.run ⟨files, .limited outputRoom, .limited errorsRoom⟩
    let (wholeStatus, whole) := command.run ⟨files, .unlimited, .unlimited⟩
    status.code = wholeStatus.code ∧ after.files = whole.files ∧
      after.output.held = whole.output.held.take outputRoom ∧
      after.errors.held = whole.errors.held.take errorsRoom := by
  intro command
  have related : World.Cut outputRoom errorsRoom ⟨files, .limited outputRoom, .limited errorsRoom⟩
      ⟨files, .unlimited, .unlimited⟩ := ⟨rfl, Sink.cut_limited outputRoom, Sink.cut_limited errorsRoom⟩
  obtain ⟨same, behind⟩ := (heedless_runWith parser arguments).run_of_cut related
  exact ⟨congrArg ExitStatus.code same, behind.files, behind.output.held, behind.errors.held⟩

end Command

end ActorSurface
