import ActorSurface.Proofs.FileSystem.Updates
import ActorSurface.Proofs.Publish.Atomicity
import ActorSurface.Proofs.Publish.Repetition

/-!
What a publication makes of a link at its target. A link is looked at and removed as the link that it is, but
unprotected by way of what it leads to: where it leads to nothing, clearing it away fails, though `retract`, which tries
the same calls, removes it. And where the path of the target goes through the link itself, nothing can be renamed to it
any more once the link is removed (`publish_replaces_iff`).
-/

namespace ActorSurface

namespace FileSystem

open Publish (Intent temporarySuffix)

/-- A link at a location, if one is there, leads to something, by the path that ends in it. -/
def LinkLeads (files : FileSystem) (path : Bytes) (location : Location) : Prop :=
  ∀ body, files.get? location = some (.link body) → ∃ found, files.lookUp .content path = .ok found

/-- A path is still found when the link at a location is taken away, if one is there. -/
def OutlastsLink (files : FileSystem) (path : Bytes) (location : Location) : Prop :=
  ∀ body, files.get? location = some (.link body) → ∃ spot, (files.erase location).resolve .entry path = .ok spot

/-- The target and the temporary path lead through one directory, in which their last names are. -/
structure Aside (files : FileSystem) (target : Bytes) (absolute : Bool) (names : List Name) (left : Nat)
    (directory : Location) (name : Name) : Prop where
  siblings : Siblings target (Utf8.encode temporarySuffix) absolute names name
  descends : Descends files absolute names left directory
  enter : files.passage directory = .enter

/-- The target and the temporary path of a name of a directory lead through that directory. -/
theorem EndsIn.aside {files : FileSystem} {target : Bytes} {directory : Location} {name : Name}
    (ends : EndsIn files target directory name) (privileged : files.privileged = true)
    (shortPath : (Intent.ofTarget target).temporary.length ≤ longestPath)
    (shortName : (stagedName name).length ≤ longestName) :
    ∃ absolute names left, Aside files target absolute names left directory name := by
  have length : (stagedName name).length = name.length + 4 := List.length_append
  have lengthPath : (Intent.ofTarget target).temporary.length = target.length + 4 := List.length_append
  have seen : Opens files.sight files := fun location _ => (passage_sight_of_privileged privileged location).symm
  have enter : files.passage directory = .enter := passage_eq_enter.mpr ends.exists_mode
  obtain ⟨absolute, names, split, -, reaches⟩ := ends.exists_names
  obtain ⟨left, descends⟩ := reaches ((passage_sight_of_privileged privileged directory).trans enter)
  obtain ⟨accepted, filled⟩ := ends.accepted
  have unaccepted : 0 ∉ Utf8.encode temporarySuffix := by decide
  have dots := stagedName_ne_dots name
  refine ⟨absolute, names, left, ⟨?_, ?_, ?_, dots.1, dots.2, shortName⟩, descends.of_opens seen rfl, enter⟩
  · rw [Path.ofArgument_of_short accepted filled (by omega)]
    have plain := split [] (by simp)
    rw [List.append_nil, List.append_nil] at plain
    rw [plain]
  · have short : (target ++ Utf8.encode temporarySuffix).length ≤ longestPath := shortPath
    rw [Path.ofArgument_of_short (by simp [accepted, unaccepted]) (by simp [filled]) short, split _ suffix_unseparated]
  · exact ⟨ends.ordinary.notDot, ends.ordinary.notDotDot, by omega⟩

namespace Aside

variable {files after : FileSystem} {target : Bytes} {absolute : Bool} {names : List Name} {left : Nat}
  {directory : Location} {name : Name} (aside : Aside files target absolute names left directory name)

include aside

theorem of_alike (alike : Alike files after) : Aside after target absolute names left directory name :=
  ⟨aside.siblings, aside.descends.of_opens (fun location _ => alike.passage location) alike.workingDirectory,
    (alike.passage directory).trans aside.enter⟩

/-- The target leads to its name, for a call that does not follow a link there. -/
theorem leads {ending : Ending} (stays : ending.follows false = true → ∀ body,
    files.passage (name :: directory) ≠ .follow body) : Leads files ending target (.named directory name false) :=
  (leads_iff_descends aside.siblings.argument).mpr
    ⟨left, directory, aside.descends, .named aside.enter aside.siblings.plain stays (by simp)⟩

theorem leads_temporary {ending : Ending} (stays : ending.follows false = true → ∀ body,
    files.passage (stagedName name :: directory) ≠ .follow body) :
    Leads files ending (Intent.ofTarget target).temporary (.named directory (stagedName name) false) :=
  (leads_iff_descends aside.siblings.extended).mpr
    ⟨left, directory, aside.descends, .named aside.enter aside.siblings.plainExtended stays (by simp)⟩

/-- Something is found at the target just where something is at its name. -/
theorem isPresent (privileged : files.privileged = true) :
    files.isPresent target = (files.get? (name :: directory)).isSome := by
  have status : Leads files .status target (.named directory name false) := aside.leads nofun
  exact status.isPresent privileged

/-- What is at the name, and is no directory, can be removed. -/
theorem unlink (privileged : files.privileged = true) {entry : Entry}
    (stands : files.get? (name :: directory) = some entry) (notDirectory : entry.isDirectory = false) :
    files.unlink target = .ok (files.erase (name :: directory)) :=
  (unlink_eq_ok_iff privileged).mpr ⟨directory, name, entry, aside.leads nofun, stands, notDirectory, rfl⟩

/-- A path that is still found without its last name leads through the same directory then. -/
theorem erase {spot : Spot} (found : Leads (files.erase (name :: directory)) .entry target spot) :
    Aside (files.erase (name :: directory)) target absolute names left directory name := by
  obtain ⟨other, there, descends, -⟩ := (leads_iff_descends aside.siblings.argument).mp found
  obtain ⟨rfl, rfl⟩ := (descends.of_opens (opens_erase files _) rfl).lockstep (compatible_refl files) rfl aside.descends
  refine ⟨aside.siblings, descends, ?_⟩
  rw [passage_erase, if_neg cons_ne_self, aside.enter]

/-- With no link at either, the paths are resolved to the two names. -/
theorem pair (privileged : files.privileged = true) (blocking : Blocking (files.get? (name :: directory)))
    (blockingBeside : Blocking (files.get? (stagedName name :: directory))) :
    Pair files target (Intent.ofTarget target).temporary directory name (stagedName name)
      (files.get? (name :: directory)) (files.get? (stagedName name :: directory)) files := by
  refine ⟨⟨rfl, rfl, fun _ _ _ => rfl, rfl, rfl⟩, extended_ne name, fun ending => ?_, fun ending => ?_⟩
  · refine (resolve_eq_ok_iff privileged).mpr (aside.leads fun _ body follow => ?_)
    rw [passage_eq_follow.mp follow] at blocking
    exact blocking
  · refine (resolve_eq_ok_iff privileged).mpr (aside.leads_temporary fun _ body follow => ?_)
    rw [passage_eq_follow.mp follow] at blockingBeside
    exact blockingBeside

end Aside

/-- The files behind unprotecting what was found and freeing a location. -/
def cleared (files : FileSystem) (found : Location × Entry) (location : Location) : FileSystem :=
  (files.put found.1 (found.2.mapMode (Mode.protect false))).erase location

section

variable {files after : FileSystem} {path : Bytes} {location : Location} {entry : Entry}

/-- Changing modes leaves what is no directory as none. -/
theorem stands_of_changeMode {change : Mode → Mode} (changed : files.changeMode path change = .ok after)
    (stands : files.get? location = some entry) :
    ∃ left, after.get? location = some left ∧ left.isDirectory = entry.isDirectory := by
  obtain ⟨place, found, looked, rfl⟩ := changeMode_eq_ok changed
  obtain ⟨-, -, -, there, -⟩ := lookUp_eq_ok_iff_resolve.mp looked
  rw [get?_put]
  split
  next same =>
    cases there.symm.trans (same ▸ stands)
    exact ⟨_, rfl, isDirectory_mapMode ..⟩
  next => exact ⟨entry, stands, rfl⟩

end

end FileSystem

namespace Publish

open FileSystem (Alike Aside Blocking EndsIn Entry LinkLeads Location Mode Name OutlastsLink Pair cleared stagedName)

/-! ### Clearing and retracting -/

theorem plain_of_ne {files : FileSystem} {location : Location} {entry : Entry}
    (stands : files.get? location = some entry)
    (notDirectory : ∀ mode, files.get? location ≠ some (.directory mode)) : entry.isDirectory = false := by
  cases entry with
  | directory mode => exact absurd stands (notDirectory mode)
  | file mode content => rfl
  | link body => rfl

section

variable (world : World) (intent : Intent) {absolute : Bool} {names : List Name} {left : Nat} {directory : Location}
  {name : Name} {entry : Entry} (privileged : world.files.privileged = true)
  (aside : Aside world.files intent.target absolute names left directory name)
  (stands : world.files.get? (name :: directory) = some entry)

include privileged aside stands

/-- What is not found by way of the name cannot be cleared away. -/
theorem run_clear_of_unfound {cause : FileSystem.Fault}
    (unfound : world.files.lookUp .content intent.target = .error cause) :
    (clear intent : Sequence Unit).run.run world = (.error ⟨.unprotecting, cause⟩, world) := by
  have asks := run_ask intent.target world
  rw [aside.isPresent privileged, stands, Option.isSome_some] at asks
  have fails := run_attempt_of_error .unprotecting (Call.run_setReadOnly world intent.target false)
    (FileSystem.changeMode_of_unfound unfound _)
  unfold clear
  rw [run_bind_of_ok _ asks, if_pos rfl, run_bind_of_error _ fails]

/-- What is found by way of the name is unprotected, and what is at the name is removed. -/
theorem run_clear_of_found (notDirectory : entry.isDirectory = false) {found : Location × Entry}
    (looked : world.files.lookUp .content intent.target = .ok found) :
    (clear intent : Sequence Unit).run.run world =
      (.ok (), { world with files := world.files.cleared found (name :: directory) }) := by
  have asks := run_ask intent.target world
  rw [aside.isPresent privileged, stands, Option.isSome_some] at asks
  have changed := FileSystem.changeMode_of_found looked (Mode.protect false)
  have unprotects := run_attempt_of_ok .unprotecting (Call.run_setReadOnly world intent.target false) changed
  have alike := FileSystem.alike_changeMode changed
  obtain ⟨rest, standsStill, still⟩ := FileSystem.stands_of_changeMode changed stands
  have removed := (aside.of_alike alike).unlink (alike.privileged.trans privileged) standsStill
    (still.trans notDirectory)
  have removes := run_attempt_of_ok .removing (Call.run_unlink
    { world with files := world.files.put found.1 (found.2.mapMode (Mode.protect false)) } intent.target) removed
  unfold clear
  rw [run_bind_of_ok _ asks, if_pos rfl, run_bind_of_ok _ unprotects, removes]
  rfl

/-- Retracting removes what is no directory, whether or not it could be unprotected. -/
theorem removed_of_retract (notDirectory : entry.isDirectory = false) :
    ((retract intent : Program Location Unit).run world).2.files.get? (name :: directory) = none := by
  have removes : ∀ files : FileSystem, Alike world.files files → (∃ rest, files.get? (name :: directory) = some rest ∧
      rest.isDirectory = entry.isDirectory) →
      ((Call.unlink intent.target).run { world with files }).2.files.get? (name :: directory) = none := by
    rintro files alike ⟨rest, standsStill, still⟩
    have removed := (aside.of_alike alike).unlink (alike.privileged.trans privileged) standsStill
      (still.trans notDirectory)
    rw [Call.run_unlink, removed]
    exact (FileSystem.get?_erase ..).trans (if_pos rfl)
  unfold retract
  rw [Program.run_bind, Program.run_ofCall, Call.run_isPresent, aside.isPresent privileged, stands, Option.isSome_some,
    if_pos rfl]
  simp only [Program.run_bind, Program.run_ofCall, Program.run_pure]
  rw [Call.run_setReadOnly]
  rcases settle_cases world (world.files.changeMode intent.target (Mode.protect false)) with
    ⟨files, changed, settled⟩ | ⟨cause, -, settled⟩
  · rw [settled]
    exact removes files (FileSystem.alike_changeMode changed) (FileSystem.stands_of_changeMode changed stands)
  · rw [settled]
    exact removes world.files (.refl _) ⟨entry, stands, rfl⟩

omit stands in
/-- Behind retracting nothing is at a name that held no directory. -/
theorem free_of_retract (notDirectory : ∀ mode, world.files.get? (name :: directory) ≠ some (.directory mode)) :
    ((retract intent : Program Location Unit).run world).2.files.get? (name :: directory) = none := by
  cases stands : world.files.get? (name :: directory) with
  | none =>
    unfold retract
    rw [Program.run_bind, Program.run_ofCall, Call.run_isPresent, aside.isPresent privileged, stands]
    exact stands
  | some entry => exact removed_of_retract world intent privileged aside stands (plain_of_ne stands notDirectory)

omit stands in
/-- Clearing succeeds just where a link at the name leads to something. -/
theorem clear_eq_ok_iff (notDirectory : ∀ mode, world.files.get? (name :: directory) ≠ some (.directory mode)) :
    ((clear intent : Sequence Unit).run.run world).1 = .ok () ↔
      LinkLeads world.files intent.target (name :: directory) := by
  cases stands : world.files.get? (name :: directory) with
  | none =>
    have asks := run_ask intent.target world
    rw [aside.isPresent privileged, stands, Option.isSome_none] at asks
    have clears : (clear intent : Sequence Unit).run.run world = (.ok (), world) := by
      unfold clear
      rw [run_bind_of_ok _ asks]
      rfl
    exact ⟨fun _ body linked => (by cases stands.symm.trans linked), fun _ => congrArg Prod.fst clears⟩
  | some entry =>
    have plain := plain_of_ne stands notDirectory
    cases looked : world.files.lookUp .content intent.target with
    | ok found =>
      have clears := run_clear_of_found world intent privileged aside stands plain looked
      exact ⟨fun _ _ _ => ⟨found, looked⟩, fun _ => congrArg Prod.fst clears⟩
    | error cause =>
      rw [run_clear_of_unfound world intent privileged aside stands looked]
      refine ⟨nofun, fun leads => ?_⟩
      cases entry with
      | directory mode => cases plain
      | link body =>
        obtain ⟨found, same⟩ := leads body stands
        cases looked.symm.trans same
      | file mode content =>
        have content : FileSystem.Leads world.files .content intent.target (.named directory name false) :=
          aside.leads fun _ body follow => by cases stands.symm.trans (FileSystem.passage_eq_follow.mp follow)
        cases looked.symm.trans (content.lookUp privileged stands)

end

/-! ### Publishing at a name -/

section

variable {world : World} {target : Bytes} {absolute : Bool} {names : List Name} {left : Nat} {directory : Location}
  {name : Name} {entry : Entry} (writes : List Bytes) (privileged : world.files.privileged = true)
  (aside : Aside world.files target absolute names left directory name)
  (unstaged : world.files.get? (stagedName name :: directory) = none)

/-- A new file is writable. -/
theorem protect_false_newFile : Mode.protect false Mode.newFile = Mode.newFile := by decide

/-- The files with a text staged beside a name. -/
def stagedAt (files : FileSystem) (directory : Location) (name : Name) (text : Bytes) : FileSystem :=
  files.put (stagedName name :: directory) (.file Mode.newFile text)

theorem apart_of_staged : name :: directory ≠ stagedName name :: directory :=
  fun same => FileSystem.extended_ne name (List.cons.inj same).1.symm

theorem get?_stagedAt (files : FileSystem) (text : Bytes) :
    (stagedAt files directory name text).get? (name :: directory) = files.get? (name :: directory) := by
  rw [stagedAt, FileSystem.get?_put, if_neg apart_of_staged]

include unstaged

theorem alike_stagedAt (text : Bytes) : Alike world.files (stagedAt world.files directory name text) := by
  refine .put ?_
  rw [FileSystem.passage, unstaged]
  rfl

include privileged aside

theorem run_stage_aside : (stage (.ofTarget target) writes : Sequence Unit).run.run world =
    (.ok (), { world with files := stagedAt world.files directory name writes.flatten }) := by
  have leads : FileSystem.Leads world.files .creation (Intent.ofTarget target).temporary
      (.named directory (stagedName name) false) := by
    refine aside.leads_temporary fun _ body follow => ?_
    cases (FileSystem.passage_eq_follow.mp follow).symm.trans unstaged
  have created : world.files.create (Intent.ofTarget target).temporary =
      .ok (stagedName name :: directory, world.files.put (stagedName name :: directory) (.file Mode.newFile [])) :=
    FileSystem.create_eq_ok_iff_resolve.mpr ⟨directory, stagedName name, false, Mode.newFile,
      (FileSystem.resolve_eq_ok_iff privileged).mpr leads, rfl,
      .inl ⟨unstaged, rfl, FileSystem.mayChange_of_enter privileged aside.enter⟩, rfl⟩
  rw [run_stage_of_create writes created, FileSystem.writes_put, List.nil_append]
  rfl

section

variable {body : Bytes} (linked : world.files.get? (name :: directory) = some (.link body))

include linked

/-- Where the link leads to nothing, the publication fails before it would remove the link. -/
theorem publish_of_unfound {cause : FileSystem.Fault}
    (unfound : (stagedAt world.files directory name writes.flatten).lookUp .content target = .error cause) :
    ((publish (.ofTarget target) writes : Program Location (Except Fault Unit)).run world).1 =
      .error ⟨.unprotecting, cause⟩ := by
  have alike := alike_stagedAt unstaged writes.flatten
  have stages := run_stage_aside writes privileged aside unstaged
  have clears := run_clear_of_unfound { world with files := stagedAt world.files directory name writes.flatten }
    (.ofTarget target) (alike.privileged.trans privileged) (aside.of_alike alike)
    ((get?_stagedAt ..).trans linked) unfound
  have fails : (replace (.ofTarget target) : Sequence Unit).run.run _ = _ := run_bind_of_error _ clears
  rw [publish_of_replace_error stages fails]

section

variable {found : Location × Entry}
  (looked : (stagedAt world.files directory name writes.flatten).lookUp .content target = .ok found)

include looked

/-- Where the link leads to something, it is cleared away, and walks are as they were without it. -/
theorem clear_of_link :
    let staged := stagedAt world.files directory name writes.flatten
    (clear (.ofTarget target) : Sequence Unit).run.run { world with files := staged } =
        (.ok (), { world with files := staged.cleared found (name :: directory) }) ∧
      Alike (world.files.erase (name :: directory)) (staged.cleared found (name :: directory)) := by
  intro staged
  have alike := alike_stagedAt unstaged writes.flatten
  have unprotected := FileSystem.alike_changeMode (FileSystem.changeMode_of_found looked (Mode.protect false))
  exact ⟨run_clear_of_found { world with files := staged } (.ofTarget target) (alike.privileged.trans privileged)
    (aside.of_alike alike) ((get?_stagedAt ..).trans linked) rfl looked, (alike.trans unprotected).erase_both _⟩

/-- Where the path of the target went through the link, there is nothing to rename to behind that. -/
theorem publish_of_lost
    (lost : ∀ spot, (world.files.erase (name :: directory)).resolve .entry target ≠ .ok spot) :
    ∃ cause, ((publish (.ofTarget target) writes : Program Location (Except Fault Unit)).run world).1 =
      .error ⟨.renaming, cause⟩ := by
  obtain ⟨clears, alike⟩ := clear_of_link writes privileged aside unstaged linked looked
  have stages := run_stage_aside writes privileged aside unstaged
  cases renamed : ((stagedAt world.files directory name writes.flatten).cleared found (name :: directory)).rename
      (Intent.ofTarget target).temporary target with
  | ok moved =>
    obtain ⟨_, _, _, _, _, _, leads, -⟩ :=
      (FileSystem.rename_eq_ok_iff (alike.privileged.trans privileged)).mp renamed
    have privilegedErased : (world.files.erase (name :: directory)).privileged = true := privileged
    exact absurd ((FileSystem.resolve_eq_ok_iff privilegedErased).mpr (alike.symm.leads leads)) (lost _)
  | error cause =>
    have renames := run_attempt_of_error .renaming (Call.run_rename { world with
      files := (stagedAt world.files directory name writes.flatten).cleared found (name :: directory) } _ target)
      renamed
    have fails : (replace (.ofTarget target) : Sequence Unit).run.run _ = _ :=
      (run_bind_of_ok _ clears).trans (run_bind_of_error _ renames)
    exact ⟨cause, by rw [publish_of_replace_error stages fails]⟩

omit privileged aside unstaged linked in
theorem get?_cleared_staged :
    ((stagedAt world.files directory name writes.flatten).cleared found (name :: directory)).get?
      (stagedName name :: directory) = some (.file Mode.newFile writes.flatten) := by
  have there : (stagedAt world.files directory name writes.flatten).get? (stagedName name :: directory) =
      some (.file Mode.newFile writes.flatten) := (FileSystem.get?_put ..).trans (if_pos rfl)
  obtain ⟨-, -, -, stands, -⟩ := FileSystem.lookUp_eq_ok_iff_resolve.mp looked
  rw [cleared, FileSystem.get?_erase, if_neg apart_of_staged.symm, FileSystem.get?_put]
  split
  next same =>
    -- The link led to the staged file, which is writable as it is.
    have isStaged : found.2 = .file Mode.newFile writes.flatten := Option.some.inj (stands.symm.trans (same ▸ there))
    rw [isStaged]
    exact congrArg (fun mode => some (Entry.file mode writes.flatten)) protect_false_newFile
  next => exact there

/-- Where the target is still found without the link, the text takes its place. -/
theorem publish_of_outlasted {spot : FileSystem.Spot}
    (outlasts : (world.files.erase (name :: directory)).resolve .entry target = .ok spot) :
    ∃ origin after, (publish (.ofTarget target) writes : Program Location (Except Fault Unit)).run world =
        (.ok (), { world with files := after }) ∧
      Pair origin target (Intent.ofTarget target).temporary directory name (stagedName name)
        (some (.file (Mode.protect true Mode.newFile) writes.flatten)) none after := by
  obtain ⟨clears, alike⟩ := clear_of_link writes privileged aside unstaged linked looked
  have stages := run_stage_aside writes privileged aside unstaged
  have privilegedCleared := alike.privileged.trans privileged
  have privilegedErased : (world.files.erase (name :: directory)).privileged = true := privileged
  have asideCleared := (aside.erase ((FileSystem.resolve_eq_ok_iff privilegedErased).mp outlasts)).of_alike alike
  have free : ((stagedAt world.files directory name writes.flatten).cleared found (name :: directory)).get?
      (name :: directory) = none := (FileSystem.get?_erase ..).trans (if_pos rfl)
  have there := get?_cleared_staged writes looked
  have pair := asideCleared.pair privilegedCleared (by rw [free]; trivial) (by rw [there]; trivial)
  rw [free, there] at pair
  obtain ⟨after, replaces, left⟩ := run_replace_of_clear world (.ofTarget target) clears pair
    (FileSystem.mayChange_of_enter privilegedCleared asideCleared.enter)
  exact ⟨_, after, (publish_of_stage stages replaces).1, left⟩

end

end

/-- With no link at the name, the text takes the place of what is there, if that is no directory. -/
theorem publish_of_blocking (blocking : Blocking (world.files.get? (name :: directory))) :
    ∃ origin after, (publish (.ofTarget target) writes : Program Location (Except Fault Unit)).run world =
        (.ok (), { world with files := after }) ∧
      Pair origin target (Intent.ofTarget target).temporary directory name (stagedName name)
        (some (.file (Mode.protect true Mode.newFile) writes.flatten)) none after := by
  have alike := alike_stagedAt unstaged writes.flatten
  have stages := run_stage_aside writes privileged aside unstaged
  have asideStaged := aside.of_alike alike
  have privilegedStaged := alike.privileged.trans privileged
  have there : (stagedAt world.files directory name writes.flatten).get? (stagedName name :: directory) =
      some (.file Mode.newFile writes.flatten) := (FileSystem.get?_put ..).trans (if_pos rfl)
  have pair := asideStaged.pair privilegedStaged (by rw [get?_stagedAt]; exact blocking) (by rw [there]; trivial)
  rw [get?_stagedAt, there] at pair
  obtain ⟨after, replaces, left⟩ := run_replace world (.ofTarget target) pair blocking rfl
    (FileSystem.mayChange_of_enter privilegedStaged asideStaged.enter)
  exact ⟨_, after, (publish_of_stage stages replaces).1, left⟩

/-- What becomes of a publication at a name that holds no directory, by the link there, if there is one. -/
theorem publish_outcome (notDirectory : ∀ mode, world.files.get? (name :: directory) ≠ some (.directory mode)) :
    let staged := stagedAt world.files directory name writes.flatten
    let publication := (publish (.ofTarget target) writes : Program Location (Except Fault Unit)).run world
    let leads := LinkLeads staged target (name :: directory)
    let outlasts := OutlastsLink world.files target (name :: directory)
    (leads ∧ outlasts ∧ ∃ origin after, publication = (.ok (), { world with files := after }) ∧
        Pair origin target (Intent.ofTarget target).temporary directory name (stagedName name)
          (some (.file (Mode.protect true Mode.newFile) writes.flatten)) none after) ∨
      (¬ leads ∧ ∃ cause, publication.1 = .error ⟨.unprotecting, cause⟩) ∨
      leads ∧ ¬ outlasts ∧ ∃ cause, publication.1 = .error ⟨.renaming, cause⟩ := by
  intro staged publication leads outlasts
  by_cases linked : ∃ body, world.files.get? (name :: directory) = some (.link body)
  · obtain ⟨body, linked⟩ := linked
    have stagedLink := (get?_stagedAt world.files writes.flatten).trans linked
    cases looked : staged.lookUp .content target with
    | error cause =>
      refine .inr (.inl ⟨fun leads => ?_, cause, publish_of_unfound writes privileged aside unstaged linked looked⟩)
      obtain ⟨found, same⟩ := leads body stagedLink
      cases looked.symm.trans same
    | ok found =>
      have isFound : leads := fun _ _ => ⟨found, looked⟩
      cases left : (world.files.erase (name :: directory)).resolve .entry target with
      | ok spot =>
        exact .inl ⟨isFound, fun _ _ => ⟨spot, left⟩,
          publish_of_outlasted writes privileged aside unstaged linked looked left⟩
      | error cause =>
        have lost : ∀ spot, (world.files.erase (name :: directory)).resolve .entry target ≠ .ok spot :=
          fun spot same => by cases left.symm.trans same
        refine .inr (.inr ⟨isFound, fun outlasts => ?_,
          publish_of_lost writes privileged aside unstaged linked looked lost⟩)
        obtain ⟨spot, same⟩ := outlasts body linked
        exact lost spot same
  · have unlinked : ∀ body, world.files.get? (name :: directory) ≠ some (.link body) :=
      fun body same => linked ⟨body, same⟩
    refine .inl ⟨fun body same => ?_, fun body same => absurd same (unlinked body), ?_⟩
    · exact absurd ((get?_stagedAt ..).symm.trans same) (unlinked body)
    · exact publish_of_blocking writes privileged aside unstaged (FileSystem.blocking_of_ne unlinked notDirectory)

end

/-- A publication of a privileged process at a name that holds no directory, with nothing at the temporary path. Where a
    link is at the name, it has to lead to something, and the path of the target must not go through it; then, and
    where no link is there, the text takes the place of what is at the name. Otherwise the publication fails when it
    clears the link away, or behind that. Retracting would have removed the link in either case. -/
theorem publish_replaces_iff (world : World) (target : Bytes) (writes : List Bytes) (directory : Location) (name : Name)
    (privileged : world.files.privileged = true) (ends : EndsIn world.files target directory name)
    (shortPath : (Intent.ofTarget target).temporary.length ≤ FileSystem.longestPath)
    (shortName : (stagedName name).length ≤ FileSystem.longestName)
    (unstaged : world.files.get? (stagedName name :: directory) = none)
    (notDirectory : ∀ mode, world.files.get? (name :: directory) ≠ some (.directory mode)) :
    let intent := Intent.ofTarget target
    let location := name :: directory
    let staged := stagedAt world.files directory name writes.flatten
    let leads := LinkLeads staged target location
    let outlasts := OutlastsLink world.files target location
    let publication := (publish intent writes : Program Location (Except Fault Unit)).run world
    let clearing := (clear intent : Sequence Unit).run.run { world with files := staged }
    let retraction := (retract intent : Program Location Unit).run { world with files := staged }
    (publication.1 = .ok () ↔ leads ∧ outlasts) ∧
    (publication.1 = .ok () →
      publication.2.files.lookUp .status target = .ok (location, .file 0o444 writes.flatten) ∧
        publication.2.files.isPresent intent.temporary = false) ∧
    (∀ fault, publication.1 = .error fault →
      fault.step = .unprotecting ∧ ¬ leads ∨ fault.step = .renaming ∧ leads ∧ ¬ outlasts) ∧
    (clearing.1 = .ok () ↔ leads) ∧
    retraction.2.files.get? location = none := by
  intro intent location staged leads outlasts publication clearing retraction
  obtain ⟨absolute, names, left, aside⟩ := ends.aside privileged shortPath shortName
  have alike := alike_stagedAt unstaged writes.flatten
  have privilegedStaged := alike.privileged.trans privileged
  have notDirectoryStaged : ∀ mode, staged.get? location ≠ some (.directory mode) := by
    rw [get?_stagedAt]
    exact notDirectory
  have clears : clearing.1 = .ok () ↔ leads := clear_eq_ok_iff { world with files := staged } intent privilegedStaged
    (aside.of_alike alike) notDirectoryStaged
  have retracts : retraction.2.files.get? location = none := free_of_retract { world with files := staged } intent
    privilegedStaged (aside.of_alike alike) notDirectoryStaged
  rcases publish_outcome writes privileged aside unstaged notDirectory with
    ⟨isFound, isLeft, origin, after, ran, published⟩ | ⟨unfound, cause, failed⟩ | ⟨isFound, lost, cause, failed⟩
  · have succeeds : publication.1 = .ok () := congrArg Prod.fst ran
    have leaves : publication.2.files = after := congrArg (fun ended => ended.2.files) ran
    rw [FileSystem.protect_newFile] at published
    refine ⟨⟨fun _ => ⟨isFound, isLeft⟩, fun _ => succeeds⟩, fun _ => ?_, fun fault fails => ?_, clears, retracts⟩
    · rw [leaves]
      exact ⟨FileSystem.lookUp_eq_ok_iff_resolve.mpr ⟨_, published.resolve .status, rfl, published.first, nofun⟩,
        published.swap.isPresent⟩
    · cases succeeds.symm.trans fails
  · refine ⟨⟨fun succeeds => ?_, fun both => absurd both.1 unfound⟩, fun succeeds => ?_, fun fault fails => ?_, clears,
      retracts⟩
    · cases failed.symm.trans succeeds
    · cases failed.symm.trans succeeds
    · cases failed.symm.trans fails
      exact .inl ⟨rfl, unfound⟩
  · refine ⟨⟨fun succeeds => ?_, fun both => absurd both.2 lost⟩, fun succeeds => ?_, fun fault fails => ?_, clears,
      retracts⟩
    · cases failed.symm.trans succeeds
    · cases failed.symm.trans succeeds
    · cases failed.symm.trans fails
      exact .inr ⟨rfl, isFound, lost⟩

/-- In place of a link to a file, a byte is published. -/
theorem byte_replaces_link :
    let files := ((FileSystem.empty [0x77] true).put [[0x78], [0x77]] (.file Mode.newFile [0x61])).put [[0x6F], [0x77]]
      (.link [0x78])
    let publication := (publish (.ofTarget [0x6F]) [[0x79]] : Program Location (Except Fault Unit)).run
      ⟨files, .unlimited, .unlimited⟩
    EndsIn files [0x6F] [[0x77]] [0x6F] ∧ publication.1 = .ok () ∧
      publication.2.files.lookUp .status [0x6F] = .ok ([[0x6F], [0x77]], .file 0o444 [0x79]) := by
  intro files publication
  have ends : EndsIn files [0x6F] [[0x77]] [0x6F] :=
    .here ⟨by decide, by decide, by decide, by decide, by decide⟩ rfl
  have notDirectory : ∀ mode, files.get? [[0x6F], [0x77]] ≠ some (.directory mode) := fun _ stands => by cases stands
  obtain ⟨succeeds, leaves, -⟩ := publish_replaces_iff ⟨files, .unlimited, .unlimited⟩ [0x6F] [[0x79]] [[0x77]] [0x6F]
    rfl ends (by decide) (by decide) rfl notDirectory
  have published := succeeds.mpr ⟨fun _ _ => ⟨_, rfl⟩, fun _ _ => ⟨_, rfl⟩⟩
  exact ⟨ends, published, (leaves published).1⟩

/-- That a publication replaces whatever is no directory is not so: a link that leads to nothing is not cleared away,
    though retracting removes it. -/
theorem not_always_replaced :
    ¬ ∀ (world : World) (target : Bytes) (writes : List Bytes) (directory : Location) (name : Name),
      world.files.privileged = true → EndsIn world.files target directory name →
      (Intent.ofTarget target).temporary.length ≤ FileSystem.longestPath →
      (stagedName name).length ≤ FileSystem.longestName →
      world.files.get? (stagedName name :: directory) = none →
      (∀ mode, world.files.get? (name :: directory) ≠ some (.directory mode)) →
      ((publish (.ofTarget target) writes : Program Location (Except Fault Unit)).run world).1 = .ok () := by
  intro claimed
  let files := (FileSystem.empty [0x77] true).put [[0x6F], [0x77]] (.link [0x78])
  have ends : EndsIn files [0x6F] [[0x77]] [0x6F] :=
    .here ⟨by decide, by decide, by decide, by decide, by decide⟩ rfl
  have notDirectory : ∀ mode, files.get? [[0x6F], [0x77]] ≠ some (.directory mode) := fun _ stands => by cases stands
  have succeeds := claimed ⟨files, .unlimited, .unlimited⟩ [0x6F] [[0x79]] [[0x77]] [0x6F] rfl ends (by decide)
    (by decide) rfl notDirectory
  have fails : ((publish (.ofTarget [0x6F]) [[0x79]] : Program Location (Except Fault Unit)).run
      ⟨files, .unlimited, .unlimited⟩).1 = .error ⟨.unprotecting, .system .notFound⟩ := rfl
  cases fails.symm.trans succeeds

end Publish

end ActorSurface
