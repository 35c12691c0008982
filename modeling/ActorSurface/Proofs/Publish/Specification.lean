import ActorSurface.Proofs.Publish.Interruption
import ActorSurface.Proofs.Publish.Staging

/-!
What a publication at a name of a directory answers and leaves, for any process (`run_publish`), where no link is at
the name or at the one beside it. It is told from what is at the two names and what the process may do: one lemma for
each part of the publication says what the part makes of the two.
-/

namespace ActorSurface

namespace Publish

open FileSystem (Pair Replaced Openable Blocking Creatable Shut EndsIn Location Name Entry Mode openedMode stagedName
  not_shut)

section

variable {origin files : FileSystem} {directory : Location} {name other : Name} {first second : Option Entry}
  {mode : Mode} {text : Bytes} (world : World) (intent : Intent)
  (found : Pair origin intent.target intent.temporary directory name other first second files)

include found

/-- A text is staged in the file that is opened beside the name. -/
theorem run_stage (writes : List Bytes) (openable : origin.Openable directory second) :
    ∃ staged, (stage intent writes : Sequence Unit).run.run { world with files } =
        (.ok (), { world with files := staged }) ∧
      Pair origin intent.target intent.temporary directory name other first
        (some (.file (openedMode second) writes.flatten)) staged := by
  obtain ⟨created, empty⟩ := found.swap.create openable
  have runs : (stage intent writes : Sequence Unit).run.run { world with files } = _ :=
    run_stage_of_create writes created
  exact ⟨_, runs, (empty.writes writes).swap⟩

/-- Where something is at the name, clearing it away unprotects it and then tries to remove it. -/
theorem run_clear_of_some {entry : Entry} (stands : first = some entry) :
    ∃ unprotected, (clear intent : Sequence Unit).run.run { world with files } =
        (attempt .removing (.unlink intent.target) : Sequence Unit).run.run { world with files := unprotected } ∧
      Pair origin intent.target intent.temporary directory name other (some (entry.mapMode (Mode.protect false))) second
        unprotected := by
  obtain ⟨unprotected, changed, after⟩ := found.changeMode stands false
  have present : files.isPresent intent.target = true := by rw [found.isPresent, stands, Option.isSome_some]
  have asks := run_ask intent.target { world with files }
  rw [present] at asks
  have unprotects := run_attempt_of_ok .unprotecting
    (Call.run_setReadOnly { world with files } intent.target false) changed
  refine ⟨unprotected, ?_, after⟩
  unfold clear
  rw [run_bind_of_ok _ asks, if_pos rfl, run_bind_of_ok _ unprotects]

theorem run_clear_of_none (free : first = none) :
    (clear intent : Sequence Unit).run.run { world with files } = (.ok (), { world with files }) := by
  have absent : files.isPresent intent.target = false := by rw [found.isPresent, free, Option.isSome_none]
  have asks := run_ask intent.target { world with files }
  rw [absent] at asks
  unfold clear
  rw [run_bind_of_ok _ asks]
  rfl

/-- A file, if there is one, is cleared away where the process may change the directory. -/
theorem run_clear (blocking : Blocking first) (allowed : origin.mayChange directory = true) :
    ∃ cleared, (clear intent : Sequence Unit).run.run { world with files } = (.ok (), { world with files := cleared }) ∧
      Pair origin intent.target intent.temporary directory name other none second cleared := by
  cases stands : first with
  | none => exact ⟨files, run_clear_of_none world intent found stands, stands ▸ found⟩
  | some entry =>
    obtain ⟨unprotected, clears, after⟩ := run_clear_of_some world intent found stands
    cases entry with
    | file mode content =>
      obtain ⟨cleared, removed, free⟩ := after.unlink rfl allowed
      exact ⟨cleared, clears.trans (run_attempt_of_ok .removing (Call.run_unlink _ _) removed), free⟩
    | directory mode => exact (stands ▸ blocking : Blocking (some (.directory mode))).elim
    | link body => exact (stands ▸ blocking : Blocking (some (.link body))).elim

omit found in
/-- Where the target is clear, the staged file takes its place and is read-only there. -/
theorem run_replace_of_clear {start : World}
    (clears : (clear intent : Sequence Unit).run.run start = (.ok (), { world with files }))
    (free : Pair origin intent.target intent.temporary directory name other none (some (.file mode text)) files)
    (allowed : origin.mayChange directory = true) :
    ∃ replaced, (replace intent : Sequence Unit).run.run start = (.ok (), { world with files := replaced }) ∧
      Pair origin intent.target intent.temporary directory name other
        (some (.file (Mode.protect true mode) text)) none replaced := by
  obtain ⟨moved, renamed, there⟩ := free.rename trivial rfl allowed
  obtain ⟨replaced, changed, after⟩ := there.changeMode rfl true
  have renames := run_attempt_of_ok .renaming
    (Call.run_rename { world with files } intent.temporary intent.target) renamed
  have protects := run_attempt_of_ok .protecting
    (Call.run_setReadOnly { world with files := moved } intent.target true) changed
  refine ⟨replaced, ?_, after⟩
  unfold replace
  rw [run_bind_of_ok _ clears, run_bind_of_ok _ renames, protects]

/-- A staged file takes the place of a file, or of nothing, and is read-only there. -/
theorem run_replace (blocking : Blocking first) (stands : second = some (.file mode text))
    (allowed : origin.mayChange directory = true) :
    ∃ replaced, (replace intent : Sequence Unit).run.run { world with files } =
        (.ok (), { world with files := replaced }) ∧
      Pair origin intent.target intent.temporary directory name other
        (some (.file (Mode.protect true mode) text)) none replaced := by
  subst stands
  obtain ⟨cleared, clears, free⟩ := run_clear world intent found blocking allowed
  exact run_replace_of_clear world intent clears free allowed

/-- A directory is unprotected, and not removed. -/
theorem run_replace_directory (stands : first = some (.directory mode)) (allowed : origin.mayChange directory = true) :
    ∃ unprotected, (replace intent : Sequence Unit).run.run { world with files } =
        (.error ⟨.removing, .system .isDirectory⟩, { world with files := unprotected }) ∧
      Pair origin intent.target intent.temporary directory name other
        (some (.directory (Mode.protect false mode))) second unprotected := by
  obtain ⟨unprotected, clears, after⟩ := run_clear_of_some world intent found stands
  have fails := run_attempt_of_error .removing
    (Call.run_unlink { world with files := unprotected } intent.target) (after.unlink_directory rfl allowed)
  refine ⟨unprotected, ?_, after⟩
  unfold replace
  rw [run_bind_of_error _ (clears.trans fails)]

/-- In a directory that the process may not change nothing is replaced. -/
theorem run_replace_ne_ok (refused : origin.mayChange directory = false) :
    ((replace intent : Sequence Unit).run.run { world with files }).1 ≠ .ok () := by
  intro succeeds
  obtain ⟨cleared, moved, clears, renamed, -⟩ := replace_eq_ok (Prod.ext succeeds rfl)
  -- The rename asks for the right to change the directory, and so does the removal before it.
  rcases clears with ⟨-, rfl⟩ | ⟨unprotected, changed, removed⟩
  · cases refused.symm.trans (found.mayChange_of_rename renamed)
  · obtain ⟨_, entry, looked, -⟩ := FileSystem.changeMode_eq_ok changed
    obtain ⟨spot, resolved, rfl, stands, -⟩ := FileSystem.lookUp_eq_ok_iff_resolve.mp looked
    cases (found.resolve .content).symm.trans resolved
    obtain ⟨same, changes, after⟩ := found.changeMode (found.first.symm.trans stands) false
    cases changed.symm.trans changes
    cases refused.symm.trans (after.unlink_eq_ok removed).1

/-- Discarding removes the staged file where the process may change the directory. -/
theorem run_discard (stands : second = some (.file mode text)) (allowed : origin.mayChange directory = true) :
    ∃ discarded, (discard intent : Program Location Unit).run { world with files } =
        ((), { world with files := discarded }) ∧
      Pair origin intent.target intent.temporary directory name other first none discarded := by
  obtain ⟨discarded, removed, after⟩ := found.swap.unlink stands allowed
  refine ⟨discarded, ?_, after.swap⟩
  unfold discard
  rw [Program.run_bind, Program.run_ofCall, Call.run_unlink, removed]
  rfl

/-- Retracting a directory unprotects it, and does not remove it. -/
theorem run_retract_directory (stands : first = some (.directory mode)) (allowed : origin.mayChange directory = true) :
    ∃ retracted, (retract intent : Program Location Unit).run { world with files } =
        ((), { world with files := retracted }) ∧
      Pair origin intent.target intent.temporary directory name other
        (some (.directory (Mode.protect false mode))) second retracted := by
  obtain ⟨retracted, changed, after⟩ := found.changeMode stands false
  have present : files.isPresent intent.target = true := by rw [found.isPresent, stands, Option.isSome_some]
  refine ⟨retracted, ?_, after⟩
  unfold retract
  rw [Program.run_bind, Program.run_ofCall, Call.run_isPresent, present, if_pos rfl, Program.run_bind,
    Program.run_ofCall, Call.run_setReadOnly, changed, Program.run_bind, Program.run_ofCall, Call.run_unlink]
  change ((), ((({ world with files := retracted } : World).settle
    ((retracted.unlink intent.target).map ((), ·))).2)) = _
  rw [after.unlink_directory rfl allowed]
  rfl

end

theorem protect_protect (readOnly : Bool) (mode : Mode) :
    Mode.protect readOnly (Mode.protect readOnly mode) = Mode.protect readOnly mode := by
  revert mode readOnly
  decide +kernel

/-- A publication that does not replace what is at the target withdraws. -/
theorem publish_of_replace_error {world staged failed : World} {intent : Intent} {writes : List Bytes} {fault : Fault}
    (stages : (stage intent writes : Sequence Unit).run.run world = (.ok (), staged))
    (fails : (replace intent : Sequence Unit).run.run staged = (.error fault, failed)) :
    (publish intent writes : Program Location (Except Fault Unit)).run world =
      (.error fault, ((retract intent : Program Location Unit).run
        ((discard intent : Program Location Unit).run failed).2).2) := by
  unfold publish
  rw [Program.run_bind, stages, Program.run_bind, fails, Program.run_bind, Program.run_bind, Program.run_pure]

section

variable {world : World} {target : Bytes} {directory : Location} {name : Name}
  (ends : EndsIn world.files target directory name)
  (unlinked : ∀ body, world.files.get? (name :: directory) ≠ some (.link body))
  (unlinkedBeside : ∀ body, world.files.get? (stagedName name :: directory) ≠ some (.link body))
  (writes : List Bytes)

include ends unlinked unlinkedBeside

/-- A publication that cannot stage its text leaves the files as they are, but removes a file that it may not write. -/
theorem run_publish_of_not_creatable
    (uncreatable : ¬ Creatable world.files (Intent.ofTarget target).temporary directory (stagedName name)) :
    ∃ fault after, (publish (.ofTarget target) writes : Program Location (Except Fault Unit)).run world =
        (.error ⟨.creating, fault⟩, { world with files := after }) ∧
      (Shut world.files (Intent.ofTarget target).temporary directory (stagedName name) →
        Replaced world.files directory name (stagedName name) (world.files.get? (name :: directory)) none after) ∧
      (¬ Shut world.files (Intent.ofTarget target).temporary directory (stagedName name) → after = world.files) := by
  cases created : world.files.create (Intent.ofTarget target).temporary with
  | ok opened => exact absurd ((ends.create_iff unlinked unlinkedBeside).mp ⟨_, created⟩) uncreatable
  | error fault =>
    have ran := (publish_of_create_eq_error writes created).1
    rw [Call.run_unlink] at ran
    by_cases shut : Shut world.files (Intent.ofTarget target).temporary directory (stagedName name)
    · obtain ⟨after, removed, replaced⟩ := ends.unlink_of_shut unlinked unlinkedBeside shut
      rw [removed] at ran
      exact ⟨fault, after, ran, fun _ => replaced, fun unshut => absurd shut unshut⟩
    · cases failed : world.files.unlink (Intent.ofTarget target).temporary with
      | ok after => exact absurd (ends.shut_of_unlink unlinked unlinkedBeside uncreatable failed) shut
      | error kept =>
        rw [failed] at ran
        exact ⟨fault, world.files, ran, fun isShut => absurd isShut shut, fun _ => rfl⟩

/-- A text is published where it can be staged and the directory can be changed, if no directory is at the name. -/
theorem run_publish_of_creatable
    (creatable : Creatable world.files (Intent.ofTarget target).temporary directory (stagedName name))
    (allowed : world.files.mayChange directory = true)
    (notDirectory : ∀ mode, world.files.get? (name :: directory) ≠ some (.directory mode)) :
    ∃ after, (publish (.ofTarget target) writes : Program Location (Except Fault Unit)).run world =
        (.ok (), { world with files := after }) ∧
      Replaced world.files directory name (stagedName name)
        (some (.file (Mode.protect true (openedMode (world.files.get? (stagedName name :: directory)))) writes.flatten))
        none after := by
  have found := ends.pair unlinked unlinkedBeside creatable.toResolvable
  have blocking : Blocking (world.files.get? (name :: directory)) := FileSystem.blocking_of_ne unlinked notDirectory
  obtain ⟨staged, stages, beside⟩ := run_stage world (.ofTarget target) found writes creatable.openable
  obtain ⟨after, replaces, published⟩ := run_replace world (.ofTarget target) beside blocking rfl allowed
  exact ⟨after, (publish_of_stage stages replaces).1, published.toReplaced⟩

/-- A directory at the name is unprotected, nothing is left at the one beside it, and the publication fails. -/
theorem run_publish_of_directory {mode : Mode}
    (creatable : Creatable world.files (Intent.ofTarget target).temporary directory (stagedName name))
    (allowed : world.files.mayChange directory = true)
    (stands : world.files.get? (name :: directory) = some (.directory mode)) :
    ∃ after, (publish (.ofTarget target) writes : Program Location (Except Fault Unit)).run world =
        (.error ⟨.removing, .system .isDirectory⟩, { world with files := after }) ∧
      Replaced world.files directory name (stagedName name)
        (some (.directory (Mode.protect false mode))) none after := by
  have found := ends.pair unlinked unlinkedBeside creatable.toResolvable
  obtain ⟨staged, stages, beside⟩ := run_stage world (.ofTarget target) found writes creatable.openable
  obtain ⟨unprotected, fails, shown⟩ := run_replace_directory world (.ofTarget target) beside stands allowed
  obtain ⟨discarded, discards, alone⟩ := run_discard world (.ofTarget target) shown rfl allowed
  obtain ⟨after, retracts, left⟩ := run_retract_directory world (.ofTarget target) alone rfl allowed
  refine ⟨after, ?_, ?_⟩
  · rw [publish_of_replace_error stages fails, discards, retracts]
  · -- It was unprotected to be removed, and once more to be retracted.
    rw [← protect_protect]
    exact left.toReplaced

/-- In a directory that the process may not change, nothing is published. -/
theorem run_publish_ne_ok
    (creatable : Creatable world.files (Intent.ofTarget target).temporary directory (stagedName name))
    (refused : world.files.mayChange directory = false) :
    ((publish (.ofTarget target) writes : Program Location (Except Fault Unit)).run world).1 ≠ .ok () := by
  have found := ends.pair unlinked unlinkedBeside creatable.toResolvable
  obtain ⟨staged, stages, beside⟩ := run_stage world (.ofTarget target) found writes creatable.openable
  have fails := run_replace_ne_ok world (.ofTarget target) beside refused
  cases replaces : (replace (.ofTarget target) : Sequence Unit).run.run { world with files := staged } with
  | mk answer failed =>
    rw [replaces] at fails
    cases answer with
    | ok value => exact absurd rfl fails
    | error fault =>
      rw [publish_of_replace_error stages replaces]
      simp

/-- What a publication that succeeds had to find. -/
theorem required_of_publish
    (succeeds : ((publish (.ofTarget target) writes : Program Location (Except Fault Unit)).run world).1 = .ok ()) :
    Creatable world.files (Intent.ofTarget target).temporary directory (stagedName name) ∧
      world.files.mayChange directory = true ∧
      ∀ mode, world.files.get? (name :: directory) ≠ some (.directory mode) := by
  have creatable : Creatable world.files (Intent.ofTarget target).temporary directory (stagedName name) := by
    apply Classical.byContradiction
    intro uncreatable
    obtain ⟨fault, after, ran, -⟩ := run_publish_of_not_creatable ends unlinked unlinkedBeside writes uncreatable
    rw [ran] at succeeds
    cases succeeds
  have allowed : world.files.mayChange directory = true := by
    rw [← Bool.not_eq_false]
    intro refused
    exact run_publish_ne_ok ends unlinked unlinkedBeside writes creatable refused succeeds
  refine ⟨creatable, allowed, fun mode stands => ?_⟩
  obtain ⟨after, ran, -⟩ := run_publish_of_directory ends unlinked unlinkedBeside writes creatable allowed stands
  rw [ran] at succeeds
  cases succeeds

end

/-- A publication at a target that ends in a name of a directory, with no link at the name or at the staged one. It
    succeeds just where a file can be opened at the staged name, the process may change the directory, and no directory
    is at the name; a file with the text is there then, of the mode of the opened file but read-only, and nothing is at
    the staged name. If no file can be opened, all stays as it is but for a file at the staged name that could be
    removed and not be written. If a directory is at the name it stays, unprotected, and nothing is at the staged
    name. -/
theorem run_publish (world : World) (target : Bytes) (writes : List Bytes) (directory : Location) (name : Name)
    (ends : EndsIn world.files target directory name)
    (unlinked : ∀ body, world.files.get? (name :: directory) ≠ some (.link body))
    (unlinkedBeside : ∀ body, world.files.get? (stagedName name :: directory) ≠ some (.link body)) :
    let temporary := (Intent.ofTarget target).temporary
    let before := world.files.get? (name :: directory)
    let beside := world.files.get? (stagedName name :: directory)
    let creatable := Creatable world.files temporary directory (stagedName name)
    let shut := Shut world.files temporary directory (stagedName name)
    let allowed := world.files.mayChange directory = true
    let publication := (publish (.ofTarget target) writes : Program Location (Except Fault Unit)).run world
    ((∃ opened, world.files.create temporary = .ok opened) ↔ creatable) ∧
    (world.files.privileged = true → allowed ∧ ¬ shut ∧ (creatable ↔ temporary.length ≤ FileSystem.longestPath ∧
      (stagedName name).length ≤ FileSystem.longestName ∧ ∀ mode, beside ≠ some (.directory mode))) ∧
    (publication.1 = .ok () ↔ creatable ∧ allowed ∧ ∀ mode, before ≠ some (.directory mode)) ∧
    (publication.1 = .ok () → ∃ after, publication.2 = { world with files := after } ∧
      Replaced world.files directory name (stagedName name)
        (some (.file (Mode.protect true (openedMode beside)) writes.flatten)) none after) ∧
    (¬ creatable → ∃ fault after, publication = (.error ⟨.creating, fault⟩, { world with files := after }) ∧
      (shut → Replaced world.files directory name (stagedName name) before none after) ∧
      (¬ shut → after = world.files)) ∧
    ∀ mode, creatable → allowed → before = some (.directory mode) → ∃ after,
      publication = (.error ⟨.removing, .system .isDirectory⟩, { world with files := after }) ∧
      Replaced world.files directory name (stagedName name)
        (some (.directory (Mode.protect false mode))) none after := by
  intro temporary before beside creatable shut allowed publication
  have unstaged := run_publish_of_not_creatable ends unlinked unlinkedBeside writes
  have published := run_publish_of_creatable ends unlinked unlinkedBeside writes
  have required := required_of_publish ends unlinked unlinkedBeside writes
  refine ⟨ends.create_iff unlinked unlinkedBeside, fun privileged => ?_, ⟨required, ?_⟩, fun succeeds => ?_, unstaged,
    fun mode creates changes stands => ?_⟩
  · exact ⟨ends.mayChange privileged, not_shut privileged, ends.creatable_iff_of_privileged unlinkedBeside privileged⟩
  · rintro ⟨creates, changes, notDirectory⟩
    obtain ⟨after, ran, -⟩ := published creates changes notDirectory
    exact congrArg Prod.fst ran
  · obtain ⟨creates, changes, notDirectory⟩ := required succeeds
    obtain ⟨after, ran, replaced⟩ := published creates changes notDirectory
    exact ⟨after, congrArg Prod.snd ran, replaced⟩
  · exact run_publish_of_directory ends unlinked unlinkedBeside writes creates changes stands

/-- A byte is published over a file of another one, for a privileged process. -/
theorem byte_published :
    let files := (FileSystem.empty [0x77] true).put [[0x6F], [0x77]] (.file Mode.newFile [0x78])
    EndsIn files [0x6F] [[0x77]] [0x6F] ∧ (∀ body, files.get? [[0x6F], [0x77]] ≠ some (.link body)) ∧
      (∀ body, files.get? [stagedName [0x6F], [0x77]] ≠ some (.link body)) ∧
      ∃ after, (publish (.ofTarget [0x6F]) [[0x79]] : Program Location (Except Fault Unit)).run
          ⟨files, .unlimited, .unlimited⟩ = (.ok (), ⟨after, .unlimited, .unlimited⟩) ∧
        Replaced files [[0x77]] [0x6F] (stagedName [0x6F]) (some (.file 0o444 [0x79])) none after := by
  intro files
  have ends : EndsIn files [0x6F] [[0x77]] [0x6F] :=
    .here ⟨by decide, by decide, by decide, by decide, by decide⟩ rfl
  have unlinked : ∀ body, files.get? [[0x6F], [0x77]] ≠ some (.link body) := fun _ linked => by cases linked
  have unlinkedBeside : ∀ body, files.get? [stagedName [0x6F], [0x77]] ≠ some (.link body) :=
    fun _ linked => by cases linked
  have creatable : Creatable files (Intent.ofTarget [0x6F]).temporary [[0x77]] (stagedName [0x6F]) :=
    ⟨⟨by decide, by decide, rfl⟩, rfl⟩
  have notDirectory : ∀ mode, files.get? [[0x6F], [0x77]] ≠ some (.directory mode) := fun _ stands => by cases stands
  obtain ⟨-, -, succeeds, leaves, -⟩ :=
    run_publish ⟨files, .unlimited, .unlimited⟩ [0x6F] [[0x79]] [[0x77]] [0x6F] ends unlinked unlinkedBeside
  have published := succeeds.mpr ⟨creatable, rfl, notDirectory⟩
  obtain ⟨after, left, replaced⟩ := leaves published
  have content : some (Entry.file (Mode.protect true Mode.newFile) [[0x79]].flatten) = some (.file 0o444 [0x79]) := by
    decide
  exact ⟨ends, unlinked, unlinkedBeside, after, Prod.ext published left, content ▸ replaced⟩

/-- Whether a publication succeeds rests, for a process of some rights, on no more than how long the staged name is and
    where directories are. -/
def RestsOnNames (privileged : Bool) : Prop :=
  ∀ (world : World) (target : Bytes) (writes : List Bytes) (directory : Location) (name : Name),
    world.files.privileged = privileged → EndsIn world.files target directory name →
    (∀ body, world.files.get? (name :: directory) ≠ some (.link body)) →
    (∀ body, world.files.get? (stagedName name :: directory) ≠ some (.link body)) →
    (((publish (.ofTarget target) writes : Program Location (Except Fault Unit)).run world).1 = .ok () ↔
      (stagedName name).length ≤ FileSystem.longestName ∧
        (∀ mode, world.files.get? (stagedName name :: directory) ≠ some (.directory mode)) ∧
        ∀ mode, world.files.get? (name :: directory) ≠ some (.directory mode))

/-- A path to a name in the working directory, with some number of separators before the name. -/
def spread (count : Nat) : Bytes :=
  FileSystem.dot ++ List.replicate count FileSystem.separator

theorem stretches_replicate (count : Nat) :
    FileSystem.Path.stretches (List.replicate count FileSystem.separator) = List.replicate (count + 1) [] := by
  induction count with
  | zero => rfl
  | succ count ih => simp only [List.replicate_succ, FileSystem.Path.stretches, if_true, ih]

theorem length_spread (count : Nat) : (spread count).length = count + 1 := by
  simp [spread, FileSystem.dot]

theorem spread_succ (count : Nat) : spread (count + 1) = spread count ++ [FileSystem.separator] := by
  rw [spread, List.replicate_succ', ← List.append_assoc, spread]

/-- Separators lead nowhere else. -/
theorem ofBytes_spread (count : Nat) :
    FileSystem.Path.ofBytes (spread (count + 1)) = ⟨false, [FileSystem.dot], true⟩ := by
  have split : spread (count + 1) =
      FileSystem.dot ++ FileSystem.separator :: List.replicate count FileSystem.separator := by
    rw [spread, List.replicate_succ]
  have ends : (spread (count + 1)).getLast? = some FileSystem.separator := by
    rw [spread_succ, List.getLast?_concat]
  have names : (FileSystem.Path.stretches (spread (count + 1))).filter (!·.isEmpty) = [FileSystem.dot] := by
    rw [split, FileSystem.Path.stretches_behind, stretches_replicate]
    simp [FileSystem.Path.stretches, FileSystem.dot, FileSystem.separator]
  unfold FileSystem.Path.ofBytes
  rw [names, ends]
  rfl

theorem endsIn_spread {count : Nat} (short : count + 2 ≤ FileSystem.longestPath) :
    EndsIn (FileSystem.empty [0x77] true) (spread count ++ FileSystem.separator :: [0x6F]) [[0x77]] [0x6F] := by
  have accepted : 0 ∉ spread (count + 1) := by simp [spread, FileSystem.dot, FileSystem.separator]
  have filled : spread (count + 1) ≠ [] := by simp [spread, FileSystem.dot]
  have found : (FileSystem.empty [0x77] true).lookUp .content (spread count ++ [FileSystem.separator]) =
      .ok ([[0x77]], .directory Mode.newDirectory) := by
    unfold FileSystem.lookUp FileSystem.resolve
    rw [← spread_succ, FileSystem.Path.ofArgument_of_short accepted filled (by rw [length_spread]; exact short),
      ofBytes_spread]
    rfl
  exact .behind ⟨by decide, by decide, by decide, by decide, by decide⟩ found

/-- It does not rest on them alone: what makes the difference for a privileged process is how long the path is, and for
    another one a file at the staged name that it may not write. -/
theorem not_restsOnNames : ¬ RestsOnNames true ∧ ¬ RestsOnNames false := by
  constructor
  · intro claimed
    let files := FileSystem.empty [0x77] true
    -- The target has as many bytes as a path may have, so that the temporary path has too many.
    have ends : EndsIn files (spread 4092 ++ FileSystem.separator :: [0x6F]) [[0x77]] [0x6F] :=
      endsIn_spread (by decide)
    have free : files.get? [[0x6F], [0x77]] = none := rfl
    have freeBeside : files.get? [stagedName [0x6F], [0x77]] = none := rfl
    have succeeds := (claimed ⟨files, .unlimited, .unlimited⟩ _ [] _ _ rfl ends
      (by simp [free]) (by simp [freeBeside])).mpr ⟨by decide, by simp [freeBeside], by simp [free]⟩
    have short := (required_of_publish ends (by simp [free]) (by simp [freeBeside]) [] succeeds).1.shortPath
    have suffix : (Utf8.encode temporarySuffix).length = 4 := by decide
    have bound : FileSystem.longestPath = 4095 := rfl
    simp only [Intent.ofTarget, List.length_append, List.length_cons, List.length_nil, length_spread, suffix,
      bound] at short
    omega
  · intro claimed
    let files := (FileSystem.empty [0x77] false).put [stagedName [0x6F], [0x77]] (.file 0o444 [])
    have ends : EndsIn files [0x6F] [[0x77]] [0x6F] :=
      .here ⟨by decide, by decide, by decide, by decide, by decide⟩ rfl
    have free : files.get? [[0x6F], [0x77]] = none := rfl
    have beside : files.get? [stagedName [0x6F], [0x77]] = some (.file 0o444 []) := rfl
    have succeeds := (claimed ⟨files, .unlimited, .unlimited⟩ [0x6F] [] _ _ rfl ends
      (by simp [free]) (by simp [beside])).mpr ⟨by decide, by simp [beside], by simp [free]⟩
    have openable := (required_of_publish ends (by simp [free]) (by simp [beside]) [] succeeds).1.openable
    have unwritable : files.admits Mode.ownerWrite 0o444 = false := rfl
    cases unwritable.symm.trans openable

end Publish

end ActorSurface
