import ActorSurface.Proofs.Program.Steps
import ActorSurface.Proofs.Publish.Placement

/-!
The steps of a publication as runs of a world. A step that fails ends the sequence of which it is a part
(`run_bind`), and a publication that succeeds has carried out every one (`carried_of_publish`).
-/

namespace ActorSurface

namespace Publish

open FileSystem (Answer Location Carried Cleared Mode)

/-- A program whose steps can fail, over a modelled world. -/
abbrev Sequence (α : Type) : Type 1 :=
  ExceptT Fault (Program Location) α

section

variable {α β : Type} {world after : World}

theorem run_attempt (step : Step) (call : Call Location (Answer α)) (world : World) :
    (attempt step call : Sequence α).run.run world =
      ((call.run world).1.mapError (Fault.mk step), (call.run world).2) := by
  change (Program.ofCall call >>= fun answer => pure (answer.mapError (Fault.mk step))).run world = _
  rw [Program.run_bind, Program.run_ofCall, Program.run_pure]

theorem trace_attempt (step : Step) (call : Call Location (Answer α)) (world : World) :
    (attempt step call : Sequence α).run.trace world = [⟨_, call, world⟩] := by
  change (Program.ofCall call >>= fun answer => pure (answer.mapError (Fault.mk step))).trace world = _
  rw [Program.trace_bind, Program.trace_ofCall, Program.trace_pure]
  rfl

/-- A sequence goes on behind a step that succeeds. -/
theorem run_bind_of_ok {first : Sequence α} {value : α} (next : α → Sequence β)
    (succeeds : first.run.run world = (.ok value, after)) :
    (first >>= next).run.run world = (next value).run.run after := by
  rw [ExceptT.run_bind, Program.run_bind, succeeds]

theorem trace_bind_of_ok {first : Sequence α} {value : α} (next : α → Sequence β)
    (succeeds : first.run.run world = (.ok value, after)) :
    (first >>= next).run.trace world = first.run.trace world ++ (next value).run.trace after := by
  rw [ExceptT.run_bind, Program.trace_bind, succeeds]

/-- A sequence ends with a step that fails. -/
theorem run_bind_of_error {first : Sequence α} {fault : Fault} (next : α → Sequence β)
    (fails : first.run.run world = (.error fault, after)) :
    (first >>= next).run.run world = (.error fault, after) := by
  rw [ExceptT.run_bind, Program.run_bind, fails]
  rfl

theorem trace_bind_of_error {first : Sequence α} {fault : Fault} (next : α → Sequence β)
    (fails : first.run.run world = (.error fault, after)) :
    (first >>= next).run.trace world = first.run.trace world := by
  rw [ExceptT.run_bind, Program.trace_bind, fails]
  exact List.append_nil _

/-- A sequence that succeeds consists of two that do. -/
theorem run_bind_eq_ok {first : Sequence α} {next : α → Sequence β} {result : β}
    (succeeds : (first >>= next).run.run world = (.ok result, after)) :
    ∃ value middle, first.run.run world = (.ok value, middle) ∧ (next value).run.run middle = (.ok result, after) := by
  cases ran : first.run.run world with
  | mk answer middle =>
    cases answer with
    | error fault => cases (run_bind_of_error next ran).symm.trans succeeds
    | ok value => exact ⟨value, middle, rfl, (run_bind_of_ok next ran).symm.trans succeeds⟩

theorem attempt_eq_ok {step : Step} {call : Call Location (Answer α)} {value : α}
    (succeeds : (attempt step call : Sequence α).run.run world = (.ok value, after)) :
    call.run world = (.ok value, after) := by
  rw [run_attempt] at succeeds
  cases ran : call.run world with
  | mk answer middle =>
    rw [ran] at succeeds
    cases answer <;> cases succeeds
    rfl

/-- Asking whether anything stands at a path does not fail. -/
theorem run_ask (path : Bytes) (world : World) :
    (ExceptT.lift (Program.ofCall (.isPresent path)) : Sequence Bool).run.run world =
      (.ok (world.files.isPresent path), world) := rfl

/-- A step that changes the files goes through where the change does. -/
theorem run_attempt_of_ok (step : Step) {call : Call Location (Answer Unit)} {answer : Answer FileSystem}
    {files : FileSystem} (runs : call.run world = world.settle (answer.map ((), ·))) (changed : answer = .ok files) :
    (attempt step call : Sequence Unit).run.run world = (.ok (), { world with files }) := by
  rw [run_attempt, runs, changed]
  rfl

/-- A step that changes the files fails where the change does, and leaves the world. -/
theorem run_attempt_of_error (step : Step) {call : Call Location (Answer Unit)} {answer : Answer FileSystem}
    {fault : FileSystem.Fault} (runs : call.run world = world.settle (answer.map ((), ·)))
    (failed : answer = .error fault) :
    (attempt step call : Sequence Unit).run.run world = (.error ⟨step, fault⟩, world) := by
  rw [run_attempt, runs, failed]
  rfl

/-- Opening a file for writing. -/
theorem run_create_of_ok {path : Bytes} {file : Location} {opened : FileSystem}
    (created : world.files.create path = .ok (file, opened)) :
    (attempt .creating (.create path) : Sequence Location).run.run world =
      (.ok file, { world with files := opened }) := by
  rw [run_attempt, Call.run_create, created]
  rfl

theorem run_create_of_error {path : Bytes} {cause : FileSystem.Fault}
    (created : world.files.create path = .error cause) :
    (attempt .creating (.create path) : Sequence Location).run.run world = (.error ⟨.creating, cause⟩, world) := by
  rw [run_attempt, Call.run_create, created]
  rfl

/-- Writing does not fail. -/
theorem run_write (file : Location) (octets : Bytes) (world : World) :
    (attempt .writing (.write file octets) : Sequence Unit).run.run world =
      (.ok (), { world with files := world.files.write file octets }) := by
  rw [run_attempt, Call.run_write]
  rfl

theorem run_sync (file : Location) (world : World) :
    (attempt .writing (.sync file) : Sequence Unit).run.run world = (.ok (), world) := by
  rw [run_attempt, Call.run_sync]
  rfl

theorem run_writes (file : Location) (writes : List Bytes) (world : World) :
    (writes.forM fun octets => attempt .writing (.write file octets) : Sequence Unit).run.run world =
      (.ok (), { world with files := writes.foldl (fun files octets => files.write file octets) world.files }) := by
  induction writes generalizing world with
  | nil => rfl
  | cons octets writes ih => exact (run_bind_of_ok _ (run_write file octets world)).trans (ih _)

/-- Staging succeeds where the staged file can be opened, and writes the text to it. -/
theorem run_stage_of_create {intent : Intent} (writes : List Bytes) {file : Location} {opened : FileSystem}
    (created : world.files.create intent.temporary = .ok (file, opened)) :
    (stage intent writes : Sequence Unit).run.run world =
      (.ok (), { world with files := writes.foldl (fun files octets => files.write file octets) opened }) := by
  unfold stage
  rw [run_bind_of_ok _ (run_create_of_ok created), run_bind_of_ok _ (run_writes file writes _), run_sync]

theorem run_stage_of_create_error {intent : Intent} (writes : List Bytes) {cause : FileSystem.Fault}
    (created : world.files.create intent.temporary = .error cause) :
    (stage intent writes : Sequence Unit).run.run world = (.error ⟨.creating, cause⟩, world) :=
  run_bind_of_error _ (run_create_of_error created)

theorem settle_eq_ok {answer : Answer (α × FileSystem)} {value : α}
    (settles : world.settle answer = (.ok value, after)) : answer = .ok (value, after.files) := by
  cases answer with
  | error fault => cases settles
  | ok result =>
    cases settles
    rfl

theorem settle_map_eq_ok {answer : Answer FileSystem} {value : Unit}
    (settles : world.settle (answer.map ((), ·)) = (.ok value, after)) : answer = .ok after.files := by
  cases answer with
  | error fault => cases settles
  | ok result =>
    cases settles
    rfl

/-- A text that is staged is written to the file created for it. -/
theorem stage_eq_ok {intent : Intent} {writes : List Bytes} {value : Unit}
    (succeeds : (stage intent writes : Sequence Unit).run.run world = (.ok value, after)) :
    ∃ file opened, world.files.create intent.temporary = .ok (file, opened) ∧
      after.files = writes.foldl (fun files octets => files.write file octets) opened := by
  obtain ⟨file, opened, creates, others⟩ := run_bind_eq_ok succeeds
  obtain ⟨_, written, wrote, syncs⟩ := run_bind_eq_ok others
  have created := settle_eq_ok (attempt_eq_ok creates)
  cases (run_writes file writes opened).symm.trans wrote
  cases attempt_eq_ok syncs
  exact ⟨file, opened.files, created, rfl⟩

theorem clear_eq_ok {intent : Intent} {value : Unit}
    (succeeds : (clear intent : Sequence Unit).run.run world = (.ok value, after)) :
    Cleared intent.target world.files after.files := by
  obtain ⟨present, same, asks, others⟩ := run_bind_eq_ok succeeds
  obtain ⟨rfl, rfl⟩ : world.files.isPresent intent.target = present ∧ world = same := by
    cases asks
    exact ⟨rfl, rfl⟩
  cases present : world.files.isPresent intent.target with
  | false =>
    rw [present] at others
    cases others
    exact .inl ⟨present, rfl⟩
  | true =>
    rw [present] at others
    obtain ⟨_, unprotected, unprotects, removes⟩ := run_bind_eq_ok others
    exact .inr ⟨unprotected.files, settle_map_eq_ok (attempt_eq_ok unprotects),
      settle_map_eq_ok (attempt_eq_ok removes)⟩

theorem replace_eq_ok {intent : Intent} {value : Unit}
    (succeeds : (replace intent : Sequence Unit).run.run world = (.ok value, after)) :
    ∃ cleared moved, Cleared intent.target world.files cleared ∧
      cleared.rename intent.temporary intent.target = .ok moved ∧
      moved.changeMode intent.target (Mode.protect true) = .ok after.files := by
  obtain ⟨_, cleared, clears, others⟩ := run_bind_eq_ok succeeds
  obtain ⟨_, moved, renames, protects⟩ := run_bind_eq_ok others
  exact ⟨cleared.files, moved.files, clear_eq_ok clears, settle_map_eq_ok (attempt_eq_ok renames),
    settle_map_eq_ok (attempt_eq_ok protects)⟩

/-- A publication that succeeds has gone through. -/
theorem carried_of_publish {intent : Intent} {writes : List Bytes}
    (succeeds : (publish intent writes : Program Location (Except Fault Unit)).run world = (.ok (), after)) :
    Carried intent writes world.files after.files := by
  unfold publish at succeeds
  rw [Program.run_bind] at succeeds
  cases staged : (stage intent writes : Sequence Unit).run.run world with
  | mk answer middle =>
    rw [staged] at succeeds
    cases answer with
    | error fault => 
      rw [Program.run_bind] at succeeds
      cases succeeds
    | ok value =>
      rw [Program.run_bind] at succeeds
      cases replaced : (replace intent : Sequence Unit).run.run middle with
      | mk answer final =>
        rw [replaced] at succeeds
        cases answer with
        | error fault => 
          rw [Program.run_bind, Program.run_bind] at succeeds
          cases succeeds
        | ok value =>
          cases succeeds
          obtain ⟨file, opened, created, written⟩ := stage_eq_ok staged
          obtain ⟨cleared, moved, clears, renamed, protects⟩ := replace_eq_ok replaced
          exact ⟨file, opened, cleared, moved, created, written ▸ clears, renamed, protects⟩

end

/-! ### The calls that the parts make -/

section

variable {kind : ∀ {β : Type}, Call Location β → Prop} {α β : Type} {intent : Intent}

open Program (MakesOnly)

theorem makesOnly_attempt {step : Step} {call : Call Location (Answer α)} (allowed : kind call) :
    (attempt step call : Sequence α).run.MakesOnly kind :=
  MakesOnly.bind (.ofCall allowed) fun _ => .pure _

theorem makesOnly_bind {first : Sequence α} {next : α → Sequence β} (only : first.run.MakesOnly kind)
    (others : ∀ value, (next value).run.MakesOnly kind) : (first >>= next).run.MakesOnly kind := by
  rw [ExceptT.run_bind]
  refine only.bind fun answer => ?_
  cases answer with
  | error fault => exact .pure _
  | ok value => exact others value

theorem makesOnly_writes {file : Location} (wrote : ∀ octets, kind (.write file octets)) (writes : List Bytes) :
    (writes.forM fun octets => attempt .writing (.write file octets) : Sequence Unit).run.MakesOnly kind := by
  induction writes with
  | nil => exact .pure _
  | cons octets writes ih => exact makesOnly_bind (makesOnly_attempt (wrote octets)) fun _ => ih

theorem makesOnly_stage (creates : kind (.create intent.temporary)) (wrote : ∀ file octets, kind (.write file octets))
    (syncs : ∀ file, kind (.sync file)) (writes : List Bytes) :
    (stage intent writes : Sequence Unit).run.MakesOnly kind := by
  refine makesOnly_bind (makesOnly_attempt creates) fun file => ?_
  exact makesOnly_bind (makesOnly_writes (wrote file) writes) fun _ => makesOnly_attempt (syncs file)

section

variable (asks : kind (.isPresent intent.target)) (unprotects : kind (.setReadOnly intent.target false))
  (removes : kind (.unlink intent.target))

include asks unprotects removes

theorem makesOnly_clear : (clear intent : Sequence Unit).run.MakesOnly kind := by
  refine makesOnly_bind (MakesOnly.bind (.ofCall asks) fun _ => .pure _) fun present => ?_
  cases present with
  | false => exact .pure _
  | true => exact makesOnly_bind (makesOnly_attempt unprotects) fun _ => makesOnly_attempt removes

theorem makesOnly_replace (renames : kind (.rename intent.temporary intent.target))
    (protects : kind (.setReadOnly intent.target true)) : (replace intent : Sequence Unit).run.MakesOnly kind := by
  refine makesOnly_bind (makesOnly_clear asks unprotects removes) fun _ => ?_
  exact makesOnly_bind (makesOnly_attempt renames) fun _ => makesOnly_attempt protects

theorem makesOnly_retract : (retract intent : Program Location Unit).MakesOnly kind := by
  refine MakesOnly.bind (.ofCall asks) fun present => ?_
  cases present with
  | false => exact .pure _
  | true => exact .bind (.ofCall unprotects) fun _ => .bind (.ofCall removes) fun _ => .pure _

end

theorem makesOnly_discard (discards : kind (.unlink intent.temporary)) :
    (discard intent : Program Location Unit).MakesOnly kind :=
  MakesOnly.bind (.ofCall discards) fun _ => .pure _

theorem silent_discard (intent : Intent) : (discard intent : Program Location Unit).Silent :=
  makesOnly_discard rfl

theorem silent_retract (intent : Intent) : (retract intent : Program Location Unit).Silent :=
  makesOnly_retract rfl rfl rfl

/-- A publication prints nothing. -/
theorem silent_publish (intent : Intent) (writes : List Bytes) :
    (publish intent writes : Program Location (Except Fault Unit)).Silent := by
  refine MakesOnly.bind (makesOnly_stage rfl (fun _ _ => rfl) (fun _ => rfl) writes) fun staged => ?_
  cases staged with
  | error fault => exact .bind (silent_discard intent) fun _ => .pure _
  | ok value =>
    refine MakesOnly.bind (makesOnly_replace rfl rfl rfl rfl rfl) fun replaced => ?_
    cases replaced with
    | error fault => exact .bind (silent_discard intent) fun _ => .bind (silent_retract intent) fun _ => .pure _
    | ok value => exact .pure _

end

end Publish

end ActorSurface
