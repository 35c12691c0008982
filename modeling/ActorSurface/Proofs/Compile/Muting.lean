import ActorSurface.Proofs.Compile.Outcome
import ActorSurface.Proofs.Compile.Pipeline
import ActorSurface.Proofs.Program.Agreement

/-!
Runs with engines that answer the same but for their warnings. Warnings are told before the text is published, and
change nothing else: both runs end in the same way and leave the same files (`agree_run`), and they take courses that
differ in their warnings at most (`Course.exists_same`).
-/

namespace ActorSurface

namespace Engine

/-- Two endings that differ in their warnings at most. -/
inductive Outcome.SameButWarnings : Outcome → Outcome → Prop
  | produced {text : String} {warnings others : List Warning} :
      SameButWarnings (.produced ⟨text, warnings⟩) (.produced ⟨text, others⟩)
  | failed {failure : Failure} : SameButWarnings (.failed failure) (.failed failure)
  | panicked {message : Option String} : SameButWarnings (.panicked message) (.panicked message)

namespace Outcome.SameButWarnings

variable {outcome : Outcome}

theorem eq_failed {failure : Failure} (same : SameButWarnings (.failed failure) outcome) :
    outcome = .failed failure := by
  cases same
  rfl

theorem eq_panicked {message : Option String} (same : SameButWarnings (.panicked message) outcome) :
    outcome = .panicked message := by
  cases same
  rfl

theorem exists_produced {output : Output} (same : SameButWarnings (.produced output) outcome) :
    ∃ others, outcome = .produced ⟨output.text, others⟩ := by
  cases same
  exact ⟨_, rfl⟩

end Outcome.SameButWarnings

end Engine

namespace Compile

open FileSystem (Location)

open Program (Agree)

open Publish (Writes)

section

variable {engine other : Engine} {writes : Writes} {invocation : Invocation} (flags : Flags)

/-- The work on endings that differ in their warnings at most. -/
theorem agree_generate {request twin : Engine.Request} (same : (engine request).SameButWarnings (other twin)) :
    Agree Eq (generate engine writes invocation request : Program Location (Except Failure Unit))
      (generate other writes { invocation with flags } twin) := by
  unfold generate
  generalize engine request = ended at same ⊢
  generalize other twin = endedToo at same ⊢
  cases same with
  | failed => exact (Program.Heedless.pure _).agree_self
  | panicked => exact (Program.Heedless.pure _).agree_self
  | @produced text warnings others =>
    have told := Program.agree_of_same_files (files_reports invocation warnings)
      (files_reports { invocation with flags } others)
    exact told.bind fun _ _ _ => (heedless_publishOutput writes invocation ⟨text, warnings⟩).agree_self

/-- Two runs end in the same way and leave the same files, if their engines differ in their warnings at most. -/
theorem agree_run (same : ∀ text, (engine (asked invocation text)).SameButWarnings
      (other (asked { invocation with flags } text))) :
    Agree (fun report twin => report.status = twin.status)
      (run engine writes invocation : Program Location Report) (run other writes { invocation with flags }) := by
  have reads : (Program.ofCall (.readText invocation.input) : Program Location _).Heedless := .ofCall rfl
  refine reads.agree_self.bind fun answer _ equal => ?_
  subst equal
  cases answer with
  | error fault =>
    refine (heedless_fail invocation (readingFailure invocation fault)).agree_self.bind fun status _ equal => ?_
    exact Program.agree_pure equal
  | ok text =>
    refine (agree_generate flags (same text)).bind fun result _ equal => ?_
    subst equal
    refine (heedless_conclude invocation result).agree_self.bind fun status _ equal => ?_
    exact Program.agree_pure equal

variable {world : World} {request : Option Engine.Request} {warnings : List Warning} {failure : Option Failure}

/-- A course rests on the files of the world alone. -/
theorem Course.of_same_files {twin : World} (files : twin.files = world.files)
    (course : Course engine writes invocation world request warnings failure) :
    Course engine writes invocation twin request warnings failure := by
  have published : ∀ output, publication writes invocation twin output = publication writes invocation world output :=
    fun _ => ((Publish.silent_publish _ _).heedless.run_of_same_files files).1
  cases course with
  | unread read => exact .unread (by rw [files, read])
  | refused read ended => exact .refused (by rw [files, read]) ended
  | panicked read ended => exact .panicked (by rw [files, read]) ended
  | unpublished read ended answer => exact .unpublished (by rw [files, read]) ended (by rw [published, answer])
  | published read ended answer => exact .published (by rw [files, read]) ended (by rw [published, answer])

/-- The other takes a course like that of the one, but for the warnings of it. -/
theorem Course.exists_same (course : Course engine writes invocation world request warnings failure)
    (same : ∀ text, (engine (asked invocation text)).SameButWarnings (other (asked { invocation with flags } text))) :
    ∃ made others, Course other writes { invocation with flags } world made others failure := by
  cases course with
  | unread read => exact ⟨_, _, .unread read⟩
  | refused read ended => exact ⟨_, _, .refused read (ended ▸ same _).eq_failed⟩
  | panicked read ended => exact ⟨_, _, .panicked read (ended ▸ same _).eq_panicked⟩
  | unpublished read ended answer =>
    obtain ⟨others, answered⟩ := (ended ▸ same _).exists_produced
    exact ⟨_, _, .unpublished read answered answer⟩
  | published read ended answer =>
    obtain ⟨others, answered⟩ := (ended ▸ same _).exists_produced
    exact ⟨_, _, .published read answered answer⟩

/-- The course of a run is the only one. -/
theorem Course.unique {made : Option Engine.Request} {others : List Warning} {reason : Option Failure}
    (course : Course engine writes invocation world request warnings failure)
    (twin : Course engine writes invocation world made others reason) :
    made = request ∧ others = warnings ∧ reason = failure := by
  cases course <;> cases twin <;> simp_all

/-- An engine without warnings makes courses without warnings. -/
theorem Course.warnings_eq_nil (course : Course engine writes invocation world request warnings failure)
    (quiet : ∀ text output, engine (asked invocation text) = .produced output → output.warnings = []) :
    warnings = [] := by
  cases course with
  | unread => rfl
  | refused => rfl
  | panicked => rfl
  | unpublished _ produced _ => exact quiet _ _ produced
  | published _ produced _ => exact quiet _ _ produced

end

end Compile

end ActorSurface
