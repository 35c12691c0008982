import ActorSurface.Program.Trace

/-!
What each call does to a world, and what a run keeps since every call of it does (`Program.run_keeps`). Where
only the calls of some kind keep it, the program has to make no others (`Program.MakesOnly`). A printed line is answered
by whether its stream took it, so that a run rests on the files alone if the program makes nothing of these answers
(`Program.Heedless.run_of_same_files`).
-/

namespace ActorSurface

open FileSystem (Answer Location)

namespace Call

variable (world : World)

theorem run_readText (path : Bytes) : (readText path).run world = (world.files.readText path, world) := rfl

theorem run_create (path : Bytes) : (create path).run world = world.settle (world.files.create path) := rfl

theorem run_write (file : Location) (octets : Bytes) :
    (write file octets).run world = (.ok (), { world with files := world.files.write file octets }) := rfl

theorem run_sync (file : Location) : (sync file).run world = (.ok (), world) := rfl

theorem run_isPresent (path : Bytes) : (isPresent path).run world = (world.files.isPresent path, world) := rfl

theorem run_setReadOnly (path : Bytes) (readOnly : Bool) :
    (setReadOnly path readOnly).run world =
      world.settle ((world.files.changeMode path (FileSystem.Mode.protect readOnly)).map ((), ·)) := rfl

theorem run_unlink (path : Bytes) :
    (unlink path).run world = world.settle ((world.files.unlink path).map ((), ·)) := rfl

theorem run_rename (source target : Bytes) :
    (rename source target).run world = world.settle ((world.files.rename source target).map ((), ·)) := rfl

theorem files_print (stream : Stream) (line : String) : ((print stream line).run world).2.files = world.files := by
  cases stream <;> rfl

end Call

/-- A call with nothing to answer but that it went through changes the files, or leaves the world and tells
    why. -/
theorem settle_cases (world : World) (answer : Answer FileSystem) :
    (∃ after, answer = .ok after ∧ world.settle (answer.map ((), ·)) = (.ok (), { world with files := after })) ∨
      ∃ fault, answer = .error fault ∧ world.settle (answer.map ((), ·)) = (.error fault, world) := by
  cases answer with
  | ok after => exact .inl ⟨after, rfl, rfl⟩
  | error fault => exact .inr ⟨fault, rfl, rfl⟩

/-- What every call keeps, a run keeps. -/
theorem Program.run_keeps (kept : World → Prop)
    (keeps : ∀ {β : Type} (call : Call Location β) (world : World), kept world → kept (call.run world).2)
    {α : Type} (program : Program Location α) (world : World) (holds : kept world) :
    kept (program.run world).2 := by
  induction program generalizing world with
  | done result => exact holds
  | call first next ih => exact ih (first.run world).1 (first.run world).2 (keeps first world holds)

/-! ### Programs that make only some calls -/

/-- A program makes only calls of some kind, whatever it is answered. -/
def Program.MakesOnly (kind : ∀ {β : Type}, Call Location β → Prop) {α : Type} : Program Location α → Prop
  | .done _ => True
  | .call first next => kind first ∧ ∀ answer, (next answer).MakesOnly kind

namespace Program.MakesOnly

variable {kind : ∀ {β : Type}, Call Location β → Prop} {α β : Type}

theorem pure (result : α) : (Pure.pure result : Program Location α).MakesOnly kind := trivial

theorem ofCall {call : Call Location α} (allowed : kind call) : (Program.ofCall call).MakesOnly kind :=
  ⟨allowed, fun _ => trivial⟩

theorem bind {program : Program Location α} {next : α → Program Location β} (first : program.MakesOnly kind)
    (others : ∀ value, (next value).MakesOnly kind) : (program >>= next).MakesOnly kind := by
  induction program with
  | done result => exact others result
  | call single rest ih => exact ⟨first.1, fun answer => ih answer (first.2 answer)⟩

/-- What the calls of a kind keep, a run that makes no others keeps. -/
theorem run_keeps {program : Program Location α} (only : program.MakesOnly kind) (kept : World → Prop)
    (keeps : ∀ {β : Type} (call : Call Location β) (world : World), kind call → kept world → kept (call.run world).2)
    (world : World) (holds : kept world) : kept (program.run world).2 := by
  induction program generalizing world with
  | done result => exact holds
  | call first next ih =>
    exact ih _ (only.2 _) (first.run world).2 (keeps first world only.1 holds)

end Program.MakesOnly

/-! ### Files and streams -/

/-- Whether a call prints. -/
def Call.isPrint {α : Type} : Call Location α → Bool
  | .print _ _ => true
  | _ => false

theorem settle_streams {α : Type} (world : World) (answer : Answer (α × FileSystem)) :
    (world.settle answer).2.output = world.output ∧ (world.settle answer).2.errors = world.errors := by
  cases answer <;> exact ⟨rfl, rfl⟩

/-- A call that does not print leaves both streams alone. -/
theorem Call.run_streams {α : Type} {call : Call Location α} (silent : call.isPrint = false) (world : World) :
    (call.run world).2.output = world.output ∧ (call.run world).2.errors = world.errors := by
  cases call with
  | readText path => exact ⟨rfl, rfl⟩
  | create path => exact settle_streams _ _
  | write file octets => exact ⟨rfl, rfl⟩
  | sync file => exact ⟨rfl, rfl⟩
  | isPresent path => exact ⟨rfl, rfl⟩
  | setReadOnly path readOnly => exact settle_streams _ _
  | unlink path => exact settle_streams _ _
  | rename source target => exact settle_streams _ _
  | print stream line => cases silent

/-- A program prints nothing. -/
def Program.Silent {α : Type} (program : Program Location α) : Prop :=
  program.MakesOnly fun call => call.isPrint = false

theorem Program.Silent.run_streams {α : Type} {program : Program Location α} (silent : program.Silent) (world : World) :
    (program.run world).2.output = world.output ∧ (program.run world).2.errors = world.errors := by
  refine silent.run_keeps (fun after => after.output = world.output ∧ after.errors = world.errors) ?_ world ⟨rfl, rfl⟩
  intro β call before quiet holds
  obtain ⟨output, errors⟩ := call.run_streams quiet before
  exact ⟨output.trans holds.1, errors.trans holds.2⟩

theorem settle_of_same_files {α : Type} {one other : World} (same : one.files = other.files)
    (answer : Answer (α × FileSystem)) :
    (one.settle answer).1 = (other.settle answer).1 ∧ (one.settle answer).2.files = (other.settle answer).2.files := by
  cases answer with
  | ok result => exact ⟨rfl, rfl⟩
  | error fault => exact ⟨rfl, same⟩

/-- What a call that does not print answers and does to the files rests on the files alone. -/
theorem Call.run_of_same_files {α : Type} {call : Call Location α} (silent : call.isPrint = false) {one other : World}
    (same : one.files = other.files) :
    (call.run one).1 = (call.run other).1 ∧ (call.run one).2.files = (call.run other).2.files := by
  cases call with
  | readText path => exact ⟨congrArg (·.readText path) same, same⟩
  | create path =>
    rw [run_create, run_create, same]
    exact settle_of_same_files same _
  | write file octets => exact ⟨rfl, congrArg (·.write file octets) same⟩
  | sync file => exact ⟨rfl, same⟩
  | isPresent path => exact ⟨congrArg (·.isPresent path) same, same⟩
  | setReadOnly path readOnly =>
    rw [run_setReadOnly, run_setReadOnly, same]
    exact settle_of_same_files same _
  | unlink path =>
    rw [run_unlink, run_unlink, same]
    exact settle_of_same_files same _
  | rename source target =>
    rw [run_rename, run_rename, same]
    exact settle_of_same_files same _
  | print stream line => cases silent

theorem Call.files_of_same_files {α : Type} (call : Call Location α) {one other : World}
    (same : one.files = other.files) : (call.run one).2.files = (call.run other).2.files := by
  cases printing : call.isPrint with
  | false => exact (run_of_same_files printing same).2
  | true =>
    cases call with
    | print stream line => rw [files_print, files_print, same]
    | _ => cases printing

/-! ### Programs that do not heed their streams -/

/-- A program goes on behind each line that it prints in the same way, whether the stream took the line or not. -/
def Program.Heedless {α : Type} : Program Location α → Prop
  | .done _ => True
  | .call first next =>
    (first.isPrint = true → ∀ one other, next one = next other) ∧ ∀ answer, (next answer).Heedless

theorem Program.Silent.heedless {α : Type} {program : Program Location α} (silent : program.Silent) :
    program.Heedless := by
  induction program with
  | done result => trivial
  | call first next ih =>
    refine ⟨fun printing => ?_, fun answer => ih answer (silent.2 answer)⟩
    rw [silent.1] at printing
    cases printing

namespace Program.Heedless

variable {α β : Type}

theorem pure (result : α) : (Pure.pure result : Program Location α).Heedless := trivial

theorem ofCall {call : Call Location α} (silent : call.isPrint = false) : (Program.ofCall call).Heedless :=
  Silent.heedless (MakesOnly.ofCall silent)

/-- A line is printed without heed where what follows does not depend on the answer. -/
theorem print {stream : Stream} {line : String} {rest : Program Location α} (others : rest.Heedless) :
    (Program.ofCall (.print stream line) >>= fun _ => rest).Heedless :=
  ⟨fun _ _ _ => rfl, fun _ => others⟩

theorem bind {program : Program Location α} {next : α → Program Location β} (first : program.Heedless)
    (others : ∀ value, (next value).Heedless) : (program >>= next).Heedless := by
  induction program with
  | done result => exact others result
  | call single rest ih =>
    refine ⟨fun printing one other => ?_, fun answer => ih answer (first.2 answer)⟩
    exact congrArg (·.bind next) (first.1 printing one other)

theorem forM {γ : Type} {body : γ → Program Location PUnit} (each : ∀ item, (body item).Heedless) (items : List γ) :
    (items.forM body).Heedless := by
  induction items with
  | nil => exact pure _
  | cons item items ih => exact (each item).bind fun _ => ih

/-- On the same files, a program goes on in the same way behind its first call. -/
theorem next_eq {first : Call Location β} {next : β → Program Location α}
    (heedless : (Program.call first next).Heedless) {one other : World} (same : one.files = other.files) :
    next (first.run one).1 = next (first.run other).1 := by
  cases printing : first.isPrint with
  | true => exact heedless.1 printing _ _
  | false => rw [(first.run_of_same_files printing same).1]

/-- What every call keeps between two worlds with the same files, a run from the two keeps, and it answers the same. -/
theorem run_related (related : World → World → Prop)
    (files : ∀ {one other : World}, related one other → one.files = other.files)
    (keeps : ∀ {γ : Type} (call : Call Location γ) {one other : World}, related one other →
      related (call.run one).2 (call.run other).2)
    {program : Program Location α} (heedless : program.Heedless) {one other : World} (holds : related one other) :
    (program.run one).1 = (program.run other).1 ∧ related (program.run one).2 (program.run other).2 := by
  induction program generalizing one other with
  | done result => exact ⟨rfl, holds⟩
  | call first next ih =>
    change ((next (first.run one).1).run (first.run one).2).1 = ((next (first.run other).1).run (first.run other).2).1 ∧
      related ((next (first.run one).1).run (first.run one).2).2 ((next (first.run other).1).run (first.run other).2).2
    rw [heedless.next_eq (files holds)]
    exact ih _ (heedless.2 _) (keeps first holds)

/-- What a run answers and does to the files rests on the files alone. -/
theorem run_of_same_files {program : Program Location α} (heedless : program.Heedless) {one other : World}
    (same : one.files = other.files) :
    (program.run one).1 = (program.run other).1 ∧ (program.run one).2.files = (program.run other).2.files :=
  run_related (fun one other => one.files = other.files) id Call.files_of_same_files heedless same

end Program.Heedless

end ActorSurface
