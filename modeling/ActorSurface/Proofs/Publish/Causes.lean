import ActorSurface.Proofs.Publish.Steps
import Mathlib.Tactic.SplitIfs

/-!
The faults that calls answer on a modelled world. Each of them is one of the system, one of the path or one of the
content, never one that only a host would tell (`Known`), so that its wording has no newline. The fault of a publication
has such a cause (`Publish.known_cause`).
-/

namespace ActorSurface

namespace FileSystem

/-- Whether a fault is one that only a host tells. -/
def Fault.isHost : Fault → Bool
  | .host _ => true
  | _ => false

/-- The wording of a fault has no newline, unless the host chose it. -/
theorem Fault.newline_not_mem_message {fault : Fault} (known : fault.isHost = false) : '\n' ∉ fault.message.toList := by
  cases fault with
  | system error => cases error <;> decide +kernel
  | nulInPath => decide +kernel
  | notText => decide +kernel
  | host description => cases known

/-- An answer is none of the faults that only a host tells. -/
def Known {α : Type} (answer : Answer α) : Prop :=
  ∀ fault, answer = .error fault → fault.isHost = false

section

variable {α β : Type}

theorem known_ok (value : α) : Known (.ok value) := fun _ same => by cases same

theorem known_error {fault : Fault} (known : fault.isHost = false) : Known (.error fault : Answer α) := by
  rintro _ ⟨⟩
  exact known

theorem Known.bind {answer : Answer α} {next : α → Answer β} (first : Known answer) (others : ∀ value, Known (next value)) :
    Known (answer >>= next) := by
  cases answer with
  | error fault => exact known_error (first fault rfl)
  | ok value => exact others value

theorem Known.map {answer : Answer α} (first : Known answer) (change : α → β) : Known (answer.map change) := by
  cases answer with
  | error fault => exact known_error (first fault rfl)
  | ok value => exact known_ok _

end

variable (files : FileSystem)

theorem known_resolve (ending : Ending) (path : Bytes) : Known (files.resolve ending path) := by
  refine Known.bind ?_ fun parts => ?_
  · unfold Path.ofArgument
    split_ifs
    · exact known_error rfl
    · exact known_error rfl
    · exact known_error rfl
    · exact known_ok _
  · dsimp only
    cases files.walk ending linkLimit (if parts.absolute then [] else files.workingDirectory) parts.names
      parts.slash with
    | error fault => exact known_error rfl
    | ok spot => exact known_ok _

theorem known_lookUp (ending : Ending) (path : Bytes) : Known (files.lookUp ending path) := by
  refine Known.bind (known_resolve files ending path) fun spot => ?_
  have known : ∀ place : Location × Bool, Known (.ok place) := known_ok
  cases spot
  all_goals
    refine Known.bind (known _) fun place => ?_
    obtain ⟨location, slash⟩ := place
    dsimp only
    split
    · exact known_error rfl
    · split_ifs
      · exact known_error rfl
      · exact known_ok _

theorem known_readText (path : Bytes) : Known (files.readText path) := by
  refine Known.bind (known_lookUp files .content path) fun (_, entry) => ?_
  cases entry with
  | file mode content =>
    dsimp only
    split_ifs
    · split
      · exact known_ok _
      · exact known_error rfl
    · exact known_error rfl
  | directory mode => exact known_error rfl
  | link body => exact known_error rfl

theorem known_create (path : Bytes) : Known (files.create path) := by
  refine Known.bind (known_resolve files .creation path) fun spot => ?_
  cases spot with
  | directory location => exact known_error rfl
  | named directory name slash =>
    dsimp only
    split
    · exact known_error rfl
    · exact known_error rfl
    · split_ifs
      · exact known_ok _
      · exact known_error rfl
    · split_ifs
      · exact known_ok _
      · exact known_error rfl

theorem known_changeMode (path : Bytes) (change : Mode → Mode) : Known (files.changeMode path change) :=
  Known.bind (known_lookUp files .content path) fun _ => known_ok _

theorem known_unlink (path : Bytes) : Known (files.unlink path) := by
  refine Known.bind (known_resolve files .entry path) fun spot => ?_
  cases spot with
  | directory location => exact known_error rfl
  | named directory name slash =>
    dsimp only
    split
    · exact known_error rfl
    · split_ifs
      all_goals first | exact known_error rfl | exact known_ok _

theorem known_rename (source target : Bytes) : Known (files.rename source target) := by
  refine Known.bind (known_resolve files .entry source) fun old => ?_
  refine Known.bind (known_resolve files .entry target) fun new => ?_
  split
  · split
    · exact known_error rfl
    · split_ifs
      all_goals first | exact known_error rfl | exact known_ok _
  · exact known_error rfl

end FileSystem

open FileSystem (Answer Location Known)

theorem known_settle {α : Type} (world : World) {answer : Answer (α × FileSystem)} (known : Known answer) :
    Known (world.settle answer).1 := by
  cases answer with
  | error fault => exact FileSystem.known_error (known fault rfl)
  | ok result => exact FileSystem.known_ok _

namespace Publish

variable {α β : Type}

/-- A sequence that fails does so by a cause that is no host's. -/
def KnownCause (sequence : Sequence α) : Prop :=
  ∀ world fault, (sequence.run.run world).1 = .error fault → fault.cause.isHost = false

theorem knownCause_attempt (step : Step) {call : Call Location (Answer α)}
    (known : ∀ world, Known (call.run world).1) : KnownCause (attempt step call : Sequence α) := by
  intro world fault fails
  rw [run_attempt] at fails
  cases answers : (call.run world).1 with
  | ok value => simp [answers, Except.mapError] at fails
  | error cause =>
    obtain rfl : ⟨step, cause⟩ = fault := by simpa [answers, Except.mapError] using fails
    exact known world cause answers

theorem knownCause_pure (value : α) : KnownCause (pure value : Sequence α) := fun _ _ fails => by cases fails

theorem KnownCause.bind {first : Sequence α} {next : α → Sequence β} (before : KnownCause first)
    (others : ∀ value, KnownCause (next value)) : KnownCause (first >>= next) := by
  intro world fault fails
  cases ran : first.run.run world with
  | mk answer middle =>
    cases answer with
    | error cause =>
      rw [run_bind_of_error next ran] at fails
      cases fails
      exact before world fault (congrArg Prod.fst ran)
    | ok value =>
      rw [run_bind_of_ok next ran] at fails
      exact others value middle fault fails

theorem knownCause_setReadOnly (step : Step) (path : Bytes) (readOnly : Bool) :
    KnownCause (attempt step (.setReadOnly path readOnly)) := by
  refine knownCause_attempt step fun world => ?_
  rw [Call.run_setReadOnly]
  exact known_settle world ((FileSystem.known_changeMode _ _ _).map _)

theorem knownCause_stage (intent : Intent) (writes : List Bytes) : KnownCause (stage intent writes) := by
  have wrote : ∀ file, KnownCause (writes.forM fun octets => attempt .writing (.write file octets)) := by
    intro file world fault fails
    rw [run_writes] at fails
    cases fails
  refine KnownCause.bind (knownCause_attempt _ fun world => ?_) fun file => (wrote file).bind fun _ =>
    knownCause_attempt _ fun world => FileSystem.known_ok _
  rw [Call.run_create]
  exact known_settle world (FileSystem.known_create _ _)

theorem knownCause_replace (intent : Intent) : KnownCause (replace intent) := by
  have clears : KnownCause (clear intent) := by
    refine KnownCause.bind (fun _ _ fails => by cases fails) fun present => ?_
    cases present with
    | false => exact knownCause_pure _
    | true =>
      refine (knownCause_setReadOnly _ _ _).bind fun _ => knownCause_attempt _ fun world => ?_
      rw [Call.run_unlink]
      exact known_settle world ((FileSystem.known_unlink _ _).map _)
  refine clears.bind fun _ => KnownCause.bind (knownCause_attempt _ fun world => ?_) fun _ =>
    knownCause_setReadOnly _ _ _
  rw [Call.run_rename]
  exact known_settle world ((FileSystem.known_rename _ _ _).map _)

/-- The fault of a publication has a cause that is no host's. -/
theorem known_cause {intent : Intent} {writes : List Bytes} {world : World} {fault : Fault}
    (fails : ((publish intent writes : Program Location (Except Fault Unit)).run world).1 = .error fault) :
    fault.cause.isHost = false := by
  unfold publish at fails
  rw [Program.run_bind] at fails
  cases staged : (stage intent writes : Sequence Unit).run.run world with
  | mk answer middle =>
    rw [staged] at fails
    cases answer with
    | error cause =>
      rw [Program.run_bind] at fails
      cases fails
      exact knownCause_stage intent writes world fault (congrArg Prod.fst staged)
    | ok value =>
      rw [Program.run_bind] at fails
      cases replaced : (replace intent : Sequence Unit).run.run middle with
      | mk answer final =>
        rw [replaced] at fails
        cases answer with
        | error cause =>
          rw [Program.run_bind, Program.run_bind] at fails
          cases fails
          exact knownCause_replace intent middle fault (congrArg Prod.fst replaced)
        | ok value => cases fails

end Publish

end ActorSurface
