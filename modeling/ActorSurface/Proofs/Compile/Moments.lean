import ActorSurface.Proofs.Compile.Contents
import ActorSurface.Proofs.Compile.Pipeline
import ActorSurface.Proofs.Program.Moments

/-!
What can be found at the output path while a run is going on. Where nothing but files are at the two paths that a run
works on, each call keeps the kind of content that the file at the output path has: the text is complete before the
staged file is renamed, and until then that file is not the one at the output path. So nobody who looks there at any
moment finds a part of a text (`output_whole_throughout`).
-/

namespace ActorSurface

namespace Publish

open FileSystem (Answer Location Contains Unobstructed)

/-- What holds of a result and the world behind it, where a step succeeds. -/
def OnSuccess {α : Type} (ends : α → World → Prop) (answer : Except Fault α) (behind : World) : Prop :=
  ∀ value, answer = .ok value → ends value behind

theorem onSuccess_ok {α : Type} {ends : α → World → Prop} {value : α} {behind : World} (holds : ends value behind) :
    OnSuccess ends (.ok value) behind := by
  intro same succeeds
  cases succeeds
  exact holds

theorem onSuccess_error {α : Type} {ends : α → World → Prop} {fault : Fault} {behind : World} :
    OnSuccess ends (.error fault) behind := by
  intro value fails
  cases fails

section

variable {α β : Type} {kept : World → Prop} {ends : Except Fault α → World → Prop} {world : World}

theorem keeps_attempt (step : Step) {call : Call Location (Answer α)} (holds : kept world)
    (behind : ∀ answer after, call.Yields world answer after →
      kept after ∧ ends (answer.mapError (Fault.mk step)) after) :
    (attempt step call : Sequence α).run.Keeps kept ends world :=
  .bind (.ofCall holds fun answer after yields => ⟨(behind answer after yields).1, behind answer after yields⟩)

/-- A sequence keeps what its first part keeps, and the others from where that succeeds. -/
theorem keeps_bind {first : Sequence β} {next : β → Sequence α}
    (keeps : first.run.Keeps kept (OnSuccess fun value after => (next value).run.Keeps kept ends after) world)
    (fails : ∀ fault after, kept after → ends (.error fault) after) :
    (first >>= next).run.Keeps kept ends world := by
  rw [ExceptT.run_bind]
  refine .bind (keeps.ended fun answer after holds others => ?_)
  cases answer with
  | error fault => exact .pure holds (fails fault after holds)
  | ok value => exact others value rfl

end

/-- A call that only withdraws something lapses without leaving a trace. -/
theorem behind_of_withdraws {target : Bytes} {α : Type} {call : Call Location α} (withdraws : Withdraws target call)
    {world behind : World} {answer : α} (yields : call.Yields world answer behind) :
    behind = (call.run world).2 ∨ behind = world := by
  rcases yields with made | lapses
  · exact .inl (congrArg Prod.snd made).symm
  · cases call with
    | create path => cases withdraws
    | write file octets => cases withdraws
    | rename source target => cases withdraws
    | print stream line => cases lapses
    | readText path => exact .inr lapses.2
    | sync file => exact .inr lapses.2
    | isPresent path => exact .inr lapses.2
    | setReadOnly path readOnly => exact .inr lapses.2
    | unlink path => exact .inr lapses.2

section

variable {origin : FileSystem} {target : Bytes} {paths : List Bytes} {allowed : Bytes → Prop} {world : World}

/-- Writes go to the file that was opened, and where they all succeed it gets all of them. -/
theorem keeps_writes {file : Location} (elsewhere : ¬ FileSystem.Names origin target file) (writes : List Bytes)
    (world : World) (contains : Contains origin [target] allowed world.files) :
    (writes.forM fun octets => attempt .writing (.write file octets) : Sequence Unit).run.Keeps
      (fun world => Contains origin [target] allowed world.files)
      (OnSuccess fun _ after =>
        after.files = writes.foldl (fun files octets => files.write file octets) world.files) world := by
  induction writes generalizing world with
  | nil => exact .pure contains (onSuccess_ok rfl)
  | cons octets writes ih =>
    refine keeps_bind (keeps_attempt .writing contains fun answer after yields => ?_) fun _ _ _ => onSuccess_error
    rcases yields with made | ⟨⟨fault, rfl⟩, stored, -, rfl⟩
    · cases made
      have written := contains.append elsewhere octets
      exact ⟨written, onSuccess_ok (ih { world with files := world.files.write file octets } written)⟩
    · exact ⟨contains.append elsewhere stored, onSuccess_error⟩

variable (unobstructed : Unobstructed origin target)

include unobstructed

/-- What calls that neither create, write nor rename keep. -/
theorem keeps_of_withdraws {α : Type} {program : Program Location α} (only : program.MakesOnly (Withdraws target))
    (contains : Contains origin paths allowed world.files) :
    program.Keeps (fun world => Contains origin paths allowed world.files)
      (fun _ after => Contains origin paths allowed after.files) world := by
  refine only.keeps _ ?_ world contains
  intro β call before behind answer withdraws holds yields
  rcases behind_of_withdraws withdraws yields with rfl | rfl
  · exact keeps_of_stable (Contains.stable unobstructed paths allowed) call before withdraws holds
  · exact holds

/-- Staging writes to a file that is not the one at the target, and where it succeeds the text is there whole. -/
theorem keeps_stage {writes : List Bytes} (whole : allowed writes.flatten)
    (contains : Contains origin [target] allowed world.files) :
    (stage (.ofTarget target) writes : Sequence Unit).run.Keeps
      (fun world => Contains origin [target] allowed world.files)
      (OnSuccess fun _ after =>
        Contains origin [target, (Intent.ofTarget target).temporary] allowed after.files) world := by
  refine keeps_bind (keeps_attempt .creating contains fun answer opened yields => ?_) fun _ _ _ => onSuccess_error
  rcases yields with made | ⟨⟨fault, rfl⟩, rfl⟩
  · rw [Call.run_create] at made
    cases created : world.files.create (Intent.ofTarget target).temporary with
    | error fault =>
      rw [created] at made
      cases made
      exact ⟨contains, onSuccess_error⟩
    | ok result =>
      obtain ⟨file, files⟩ := result
      rw [created] at made
      cases made
      obtain ⟨containsOpened, elsewhere⟩ := contains.create unobstructed created
      have both := contains.staged unobstructed whole created
      have writing := keeps_writes elsewhere writes { world with files } containsOpened
      refine ⟨containsOpened, onSuccess_ok ?_⟩
      refine keeps_bind (writing.ended fun answer written holds complete value same => ?_) fun _ _ _ => onSuccess_error
      have stored := complete value same
      refine keeps_attempt .writing holds fun synced after yields => ?_
      rcases yields with made | ⟨⟨fault, rfl⟩, rfl⟩
      · cases made
        exact ⟨holds, onSuccess_ok (stored ▸ both)⟩
      · exact ⟨holds, onSuccess_error⟩
  · exact ⟨contains, onSuccess_error⟩

/-- By the time of the rename both paths are of files with contents of the kind. -/
theorem keeps_replace (contains : Contains origin [target, (Intent.ofTarget target).temporary] allowed world.files) :
    (replace (.ofTarget target) : Sequence Unit).run.Keeps
      (fun world => Contains origin [target, (Intent.ofTarget target).temporary] allowed world.files)
      (fun _ _ => True) world := by
  have clears : (clear (.ofTarget target) : Sequence Unit).run.MakesOnly (Withdraws target) :=
    makesOnly_clear trivial rfl (.inl rfl)
  have clearing := keeps_of_withdraws unobstructed clears contains
  refine keeps_bind (clearing.ended fun answer cleared _ free value _ => ?_) fun _ _ _ => trivial
  refine keeps_bind (keeps_attempt .renaming free fun answer moved yields => ?_) fun _ _ _ => trivial
  have placed : Contains origin [target, (Intent.ofTarget target).temporary] allowed moved.files := by
    rcases yields with made | ⟨-, rfl⟩
    · rw [Call.run_rename] at made
      rcases settle_cases cleared (cleared.files.rename (Intent.ofTarget target).temporary target) with
        ⟨after, renamed, settled⟩ | ⟨fault, -, settled⟩
      · cases settled.symm.trans made
        exact free.rename unobstructed renamed
      · cases settled.symm.trans made
        exact free
    · exact free
  refine ⟨placed, fun _ _ => ?_⟩
  have protects : Withdraws target (.setReadOnly target true) := rfl
  exact (keeps_of_withdraws unobstructed (makesOnly_attempt protects) placed).ended fun _ _ _ _ => trivial

/-- A publication of a text of the kind puts nothing else at its target, at no moment. -/
theorem keeps_publish {writes : List Bytes} (whole : allowed writes.flatten)
    (contains : Contains origin [target] allowed world.files) :
    (publish (.ofTarget target) writes : Program Location (Except Fault Unit)).Keeps
      (fun world => Contains origin [target] allowed world.files)
      (fun _ after => Contains origin [target] allowed after.files) world := by
  refine .bind ((keeps_stage unobstructed whole contains).ended fun staged middle holds complete => ?_)
  cases staged with
  | error fault =>
    have discards := keeps_of_withdraws unobstructed withdraws_discard holds
    exact .bind (discards.ended fun _ _ left _ => .pure left left)
  | ok value =>
    have replacing := (keeps_replace unobstructed (complete value rfl)).weaken fun _ placed =>
      placed.single List.mem_cons_self
    refine .bind (replacing.ended fun replaced final left _ => ?_)
    cases replaced with
    | ok value => exact .pure left left
    | error fault =>
      have discards := keeps_of_withdraws unobstructed withdraws_discard left
      refine .bind (discards.ended fun _ _ left _ => ?_)
      have retracts := keeps_of_withdraws unobstructed withdraws_retract left
      exact .bind (retracts.ended fun _ _ left _ => .pure left left)

end

end Publish

namespace Compile

open FileSystem (Location Mode Contains Holds Names Rooted Unobstructed Vacant)

open Publish (Intent Writes Withdraws)

section

variable {origin : FileSystem} {invocation : Invocation} {allowed : Bytes → Prop} {world : World}
  (unobstructed : Unobstructed origin invocation.output)
  (contains : Contains origin [invocation.output] allowed world.files)

include unobstructed contains

theorem keeps_fail (failure : Failure) :
    (fail invocation failure : Program Location ExitStatus).Keeps
      (fun world => Contains origin [invocation.output] allowed world.files)
      (fun _ after => Contains origin [invocation.output] allowed after.files) world := by
  refine Publish.keeps_of_withdraws unobstructed ?_ contains
  refine .bind Publish.withdraws_discard fun _ => .bind Publish.withdraws_retract fun _ => ?_
  exact .bind (withdraws_report _ _ _) fun _ => .pure _

theorem keeps_generate (engine : Engine) (writes : Writes) (request : Engine.Request)
    (whole : ∀ output, engine request = .produced output → allowed (writes (Utf8.encode output.text)).flatten) :
    (generate engine writes invocation request : Program Location (Except Failure Unit)).Keeps
      (fun world => Contains origin [invocation.output] allowed world.files)
      (fun _ after => Contains origin [invocation.output] allowed after.files) world := by
  unfold generate
  cases ended : engine request with
  | failed failure => exact .pure contains contains
  | panicked message => exact .pure contains contains
  | produced output =>
    have told := Publish.keeps_of_withdraws unobstructed (withdraws_warnings _ invocation output.warnings) contains
    refine .bind (told.ended fun _ _ holds _ => ?_)
    have publishes := Publish.keeps_publish unobstructed (whole output ended) holds
    exact .bind (publishes.ended fun _ _ left _ => .pure left left)

/-- A run puts nothing but a text of its engine at its output path, at no moment. -/
theorem keeps_run (engine : Engine) (writes : Writes)
    (whole : ∀ text output, world.files.readText invocation.input = .ok text →
      engine (asked invocation text) = .produced output → allowed (writes (Utf8.encode output.text)).flatten) :
    (run engine writes invocation : Program Location Report).Keeps
      (fun world => Contains origin [invocation.output] allowed world.files) (fun _ _ => True) world := by
  have failing : ∀ (reason : Failure) (request : Option Engine.Request) (moment : World),
      Contains origin [invocation.output] allowed moment.files →
      (fail invocation reason >>= fun status => pure ⟨status, request⟩ : Program Location Report).Keeps
        (fun world => Contains origin [invocation.output] allowed world.files) (fun _ _ => True) moment := by
    intro reason request moment holds
    exact .bind ((keeps_fail unobstructed holds reason).ended fun _ _ left _ => .pure left trivial)
  refine .bind (.ofCall contains fun answer after yields => ?_)
  rcases yields with made | ⟨⟨fault, rfl⟩, rfl⟩
  · cases read : world.files.readText invocation.input with
    | error fault =>
      rw [Call.run_readText, read] at made
      cases made
      exact ⟨contains, failing _ _ _ contains⟩
    | ok text =>
      rw [Call.run_readText, read] at made
      cases made
      have works := keeps_generate unobstructed contains engine writes (asked invocation text)
        fun output ended => whole text output read ended
      refine ⟨contains, .bind (works.ended fun result middle holds _ => ?_)⟩
      cases result with
      | ok value => exact .pure holds trivial
      | error failure => exact failing _ _ _ holds
  · exact ⟨contains, failing _ _ _ contains⟩

end

/-- At every moment of a run, before and behind each of its calls, nothing is at the output path, or a file with the
    content that was there before, or a file with the whole text of the engine. Nothing but files may be at the output
    path and at the temporary path beside it when the run starts. The rest is as it may be: the writes that store the
    text, the engine, what the process may do, which calls fail and how the run ends. -/
theorem output_whole_throughout (engine : Engine) (writes : Writes) (lossless : ∀ octets, (writes octets).flatten = octets)
    (invocation : Invocation) (world : World) (rooted : Rooted world.files)
    (atOutput : Vacant world.files.revealed invocation.output)
    (atTemporary : Vacant world.files.revealed (Intent.ofTarget invocation.output).temporary) :
    ∀ moment, (run engine writes invocation : Program Location Report).PassesThrough world moment →
      moment.files.revealed.isPresent invocation.output = false ∨
      (∃ content, Holds world.files.revealed invocation.output content ∧
        Holds moment.files.revealed invocation.output content) ∨
      ∃ text output, world.files.readText invocation.input = .ok text ∧
        engine (asked invocation text) = .produced output ∧
        Holds moment.files.revealed invocation.output (Utf8.encode output.text) := by
  let allowed : Bytes → Prop := fun content => Holds world.files.revealed invocation.output content ∨
    ∃ text output, world.files.readText invocation.input = .ok text ∧
      engine (asked invocation text) = .produced output ∧ content = Utf8.encode output.text
  have unobstructed : Unobstructed world.files invocation.output := ⟨rooted, atOutput, atTemporary⟩
  have contains : Contains world.files [invocation.output] allowed world.files :=
    FileSystem.contains_refl atOutput fun content holds => .inl holds
  have keeps := keeps_run unobstructed contains engine writes fun text output read ended =>
    .inr ⟨text, output, read, ended, lossless _⟩
  intro moment passes
  rcases (keeps.throughout passes).absent_or_holds rooted atOutput with absent | ⟨content, old | new, holds⟩
  · exact .inl absent
  · exact .inr (.inl ⟨content, old, holds⟩)
  · obtain ⟨text, output, read, ended, rfl⟩ := new
    exact .inr (.inr ⟨text, output, read, ended, holds⟩)

/-- A file of one byte is replaced by a text of two, which is stored byte by byte: at no moment of the run is one byte
    of the text there. -/
theorem replaced_bytewise_throughout :
    let files := ((FileSystem.empty [0x77] true).put [[0x69], [0x77]] (.file Mode.newFile [0x61])).put
      [[0x6F], [0x77]] (.file Mode.newFile [0x6B])
    let world : World := ⟨files, .unlimited, .unlimited⟩
    let compile := (run (fun _ => .produced ⟨"tu", []⟩) (List.map ([·])) ⟨[0x69], [0x6F], {}⟩ : Program Location Report)
    Rooted files ∧ ∀ moment ∈ compile.worlds world, moment.files.revealed.isPresent [0x6F] = false ∨
      Holds moment.files.revealed [0x6F] [0x6B] ∨ Holds moment.files.revealed [0x6F] [0x74, 0x75] := by
  intro files world compile
  have sound : FileSystem.Sound files :=
    ((FileSystem.sound_empty [0x77]).put rfl (by decide)).put rfl (by decide)
  have found : files.revealed.lookUp .status [0x6F] = .ok ([[0x6F], [0x77]], .file Mode.newFile [0x6B]) := by rfl
  have atOutput : Vacant files.revealed [0x6F] := by
    intro location entry there
    cases found.symm.trans there
    exact ⟨_, _, rfl⟩
  have atTemporary : Vacant files.revealed (Intent.ofTarget [0x6F]).temporary := by
    intro location entry there
    cases there
  have lossless : ∀ octets : Bytes, (octets.map ([·])).flatten = octets := by
    intro octets
    rw [← List.flatMap_def, List.flatMap_singleton']
  refine ⟨sound.rooted, fun moment listed => ?_⟩
  rcases output_whole_throughout (fun _ => .produced ⟨"tu", []⟩) (List.map ([·])) lossless ⟨[0x69], [0x6F], {}⟩ world
    sound.rooted atOutput atTemporary moment (Program.passesThrough_of_mem_worlds listed) with
    absent | ⟨content, old, holds⟩ | ⟨_, output, -, ended, holds⟩
  · exact .inl absent
  · obtain ⟨location, mode, there⟩ := old
    cases found.symm.trans there
    exact .inr (.inl holds)
  · cases ended
    have encoded : Utf8.encode "tu" = [0x74, 0x75] := by decide +kernel
    exact .inr (.inr (encoded ▸ holds))

end Compile

end ActorSurface
