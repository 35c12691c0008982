import ActorSurface.FileSystem.Calls
import ActorSurface.Proofs.FileSystem.Detour

/-!
What the calls answer and change, each told by what its path is resolved to, and for a privileged process by where
its path leads (`Leads`): there is one lemma for each call, and callers need not open it. Creating, writing and
changing modes leave every walk as it is (`Alike`); removing a name blocks it, and renaming blocks one name and puts
its entry at the other.
-/

namespace ActorSurface

namespace FileSystem

/-- The location of a spot. -/
def Spot.location : Spot → Location
  | .directory location => location
  | .named holder name _ => name :: holder

/-- Whether what stands at a spot has to be a directory. -/
def Spot.slash : Spot → Bool
  | .directory _ => false
  | .named _ _ slash => slash

/-- Where a path starts. -/
def start (files : FileSystem) (path : Path) : Location :=
  if path.absolute then [] else files.workingDirectory

/-- A path leads to a spot, for a call with some ending. -/
def Leads (files : FileSystem) (ending : Ending) (path : Bytes) (spot : Spot) : Prop :=
  ∃ parts, Path.ofArgument path = .ok parts ∧
    Arrives files ending ⟨linkLimit, files.start parts, parts.names⟩ parts.slash spot

theorem Leads.unique {files : FileSystem} {ending : Ending} {path : Bytes} {one other : Spot}
    (first : Leads files ending path one) (second : Leads files ending path other) : one = other := by
  obtain ⟨parts, argument, arrives⟩ := first
  obtain ⟨same, again, also⟩ := second
  obtain rfl : parts = same := Except.ok.inj (argument.symm.trans again)
  exact arrives.unique also

/-- A path is looked up where it leads. -/
theorem lookUp_of_resolve {files : FileSystem} {ending : Ending} {path : Bytes} {spot : Spot}
    (resolved : files.resolve ending path = .ok spot) :
    files.lookUp ending path =
      match files.get? spot.location with
      | none => .error (.system .notFound)
      | some entry =>
        if spot.slash && !entry.isDirectory then .error (.system .notDirectory)
        else .ok (spot.location, entry) := by
  unfold lookUp
  rw [resolved]
  cases spot <;> rfl

section

variable {files after : FileSystem} {ending : Ending} {path source target : Bytes} {location : Location} {entry : Entry}

theorem lookUp_eq_ok_iff_resolve :
    files.lookUp ending path = .ok (location, entry) ↔
      ∃ spot, files.resolve ending path = .ok spot ∧ spot.location = location ∧ files.get? location = some entry ∧
        (spot.slash = true → entry.isDirectory = true) := by
  constructor
  · intro found
    cases resolved : files.resolve ending path with
    | error fault => simp [lookUp, resolved, bind, Except.bind] at found
    | ok spot =>
      refine ⟨spot, rfl, ?_⟩
      rw [lookUp_of_resolve resolved] at found
      split at found
      next => cases found
      next there stands =>
        split at found
        next => cases found
        next fits =>
          obtain ⟨rfl, rfl⟩ : spot.location = location ∧ there = entry := by simpa using found
          exact ⟨rfl, stands, by simpa using fits⟩
  · rintro ⟨spot, resolved, rfl, stands, fits⟩
    rw [lookUp_of_resolve resolved, stands]
    simpa using fits

theorem changeMode_eq_ok {change : Mode → Mode} (changed : files.changeMode path change = .ok after) :
    ∃ location entry, files.lookUp .content path = .ok (location, entry) ∧
      after = files.put location (entry.mapMode change) := by
  unfold changeMode at changed
  cases found : files.lookUp .content path with
  | error fault => simp [found, bind, Except.bind] at changed
  | ok answer =>
    simp only [found, bind, Except.bind] at changed
    cases changed
    exact ⟨answer.1, answer.2, rfl, rfl⟩

theorem changeMode_of_found {found : Location × Entry} (looked : files.lookUp .content path = .ok found)
    (change : Mode → Mode) : files.changeMode path change = .ok (files.put found.1 (found.2.mapMode change)) := by
  simp [changeMode, looked, bind, Except.bind]

theorem changeMode_of_unfound {cause : Fault} (unfound : files.lookUp .content path = .error cause)
    (change : Mode → Mode) : files.changeMode path change = .error cause := by
  simp [changeMode, unfound, bind, Except.bind]

/-- A file that is opened for writing is one that the process may write, or a new one in a directory that it may
    change. -/
theorem create_eq_ok_iff_resolve :
    files.create path = .ok (location, after) ↔ ∃ directory name slash mode,
      files.resolve .creation path = .ok (.named directory name slash) ∧ location = name :: directory ∧
      (files.get? location = none ∧ mode = Mode.newFile ∧ files.mayChange directory = true ∨
        ∃ content, files.get? location = some (.file mode content) ∧ files.admits Mode.ownerWrite mode = true) ∧
      after = files.put location (.file mode []) := by
  unfold create
  constructor
  · intro created
    cases resolved : files.resolve .creation path with
    | error fault => simp [resolved, bind, Except.bind] at created
    | ok spot =>
      simp only [resolved, bind, Except.bind] at created
      cases spot with
      | directory here => cases created
      | named directory name slash =>
        cases stands : files.get? (name :: directory) with
        | none =>
          by_cases allowed : files.mayChange directory = true
          · simp only [stands, allowed, if_true] at created
            cases created
            exact ⟨directory, name, slash, _, rfl, rfl, .inl ⟨stands, rfl, allowed⟩, rfl⟩
          · simp [stands, allowed] at created
        | some entry =>
          cases entry with
          | directory mode => simp [stands] at created
          | link body => simp [stands] at created
          | file mode content =>
            by_cases allowed : files.admits Mode.ownerWrite mode = true
            · simp only [stands, allowed, if_true] at created
              cases created
              exact ⟨directory, name, slash, mode, rfl, rfl, .inr ⟨content, stands, allowed⟩, rfl⟩
            · simp [stands, allowed] at created
  · rintro ⟨directory, name, slash, mode, resolved, rfl, free | occupied, rfl⟩
    · obtain ⟨stands, rfl, allowed⟩ := free
      simp [resolved, bind, Except.bind, stands, allowed]
    · obtain ⟨content, stands, allowed⟩ := occupied
      simp [resolved, bind, Except.bind, stands, allowed]

/-- A file that is opened for writing is the one to which the path is resolved, and a new one where there was none.
    Walks did not go on from there. -/
theorem resolve_of_create (created : files.create path = .ok (location, after)) :
    ∃ directory name slash mode, files.resolve .creation path = .ok (.named directory name slash) ∧
      location = name :: directory ∧ files.passage location = .blocked ∧ after = files.put location (.file mode []) := by
  obtain ⟨directory, name, slash, mode, resolved, rfl, stands, rfl⟩ := create_eq_ok_iff_resolve.mp created
  refine ⟨directory, name, slash, mode, resolved, rfl, ?_, rfl⟩
  rcases stands with ⟨free, -, -⟩ | ⟨content, occupied, -⟩
  · simp [passage, free, Passage.ofEntry]
  · simp [passage, occupied, Passage.ofEntry]

/-- A name is removed just where the path is one of a file or a link, with no slash behind it, in a directory that
    the process may change. -/
theorem unlink_eq_ok_iff_resolve :
    files.unlink path = .ok after ↔ ∃ directory name entry,
      files.resolve .entry path = .ok (.named directory name false) ∧ files.get? (name :: directory) = some entry ∧
      files.mayChange directory = true ∧ entry.isDirectory = false ∧ after = files.erase (name :: directory) := by
  unfold unlink
  constructor
  · intro removed
    cases resolved : files.resolve .entry path with
    | error fault => simp [resolved, bind, Except.bind] at removed
    | ok spot =>
      simp only [resolved, bind, Except.bind] at removed
      cases spot with
      | directory here => cases removed
      | named directory name slash =>
        cases stands : files.get? (name :: directory) with
        | none => simp [stands] at removed
        | some entry =>
          simp only [stands] at removed
          by_cases slashed : slash = true
          · simp [slashed] at removed
          by_cases allowed : files.mayChange directory = true
          case neg => simp [slashed, allowed] at removed
          by_cases isDirectory : entry.isDirectory = true
          · simp [isDirectory, slashed, allowed] at removed
          obtain rfl : slash = false := by simpa using slashed
          refine ⟨directory, name, entry, rfl, stands, allowed, by simpa using isDirectory, ?_⟩
          simpa [isDirectory, allowed, eq_comm] using removed
  · rintro ⟨directory, name, entry, resolved, stands, allowed, notDirectory, rfl⟩
    simp [resolved, bind, Except.bind, stands, allowed, notDirectory]

theorem any_isDirectory_iff : (files.get? location).any Entry.isDirectory = true ↔ files.passage location = .enter := by
  unfold passage
  cases files.get? location with
  | none => simp [Passage.ofEntry]
  | some entry => cases entry <;> simp [Passage.ofEntry, Entry.isDirectory]

/-- A name is moved just where it is one of a file or a link, what it replaces is no directory, and the process may
    change both directories. -/
theorem rename_eq_ok_iff_resolve :
    files.rename source target = .ok after ↔ ∃ oldDirectory oldName newDirectory newName entry,
      files.resolve .entry source = .ok (.named oldDirectory oldName false) ∧
      files.resolve .entry target = .ok (.named newDirectory newName false) ∧
      files.get? (oldName :: oldDirectory) = some entry ∧ entry.isDirectory = false ∧
      files.mayChange oldDirectory = true ∧ files.mayChange newDirectory = true ∧
      files.passage (newName :: newDirectory) ≠ .enter ∧
      after = (files.erase (oldName :: oldDirectory)).put (newName :: newDirectory) entry := by
  unfold rename
  constructor
  · intro renamed
    cases old : files.resolve .entry source with
    | error fault => simp [old, bind, Except.bind] at renamed
    | ok oldSpot =>
      cases new : files.resolve .entry target with
      | error fault => simp [old, new, bind, Except.bind] at renamed
      | ok newSpot =>
        simp only [old, new, bind, Except.bind] at renamed
        cases oldSpot with
        | directory here => cases renamed
        | named oldDirectory oldName oldSlash =>
          cases newSpot with
          | directory here => cases renamed
          | named newDirectory newName newSlash =>
            cases stands : files.get? (oldName :: oldDirectory) with
            | none => simp [stands] at renamed
            | some entry =>
              by_cases isDirectory : entry.isDirectory = true
              · simp [stands, isDirectory] at renamed
              by_cases slashed : (oldSlash || newSlash) = true
              · simp [stands, isDirectory, slashed] at renamed
              by_cases allowed : files.mayChange oldDirectory = true
              case neg => simp [stands, isDirectory, slashed, allowed] at renamed
              by_cases allowedNew : files.mayChange newDirectory = true
              case neg => simp [stands, isDirectory, slashed, allowedNew] at renamed
              by_cases occupied : (files.get? (newName :: newDirectory)).any Entry.isDirectory = true
              · simp [stands, isDirectory, slashed, allowed, allowedNew, occupied] at renamed
              obtain ⟨rfl, rfl⟩ : oldSlash = false ∧ newSlash = false := by simpa using slashed
              refine ⟨oldDirectory, oldName, newDirectory, newName, entry, rfl, rfl, stands, by simpa using isDirectory,
                allowed, allowedNew, fun enter => occupied (any_isDirectory_iff.mpr enter), ?_⟩
              simpa [stands, isDirectory, allowed, allowedNew, occupied, eq_comm] using renamed
  · rintro ⟨oldDirectory, oldName, newDirectory, newName, entry, old, new, stands, plain, allowed, allowedNew, free, rfl⟩
    have unoccupied : ¬ (files.get? (newName :: newDirectory)).any Entry.isDirectory = true :=
      fun occupied => free (any_isDirectory_iff.mp occupied)
    simp [old, new, bind, Except.bind, stands, plain, allowed, allowedNew, unoccupied]

end

section

variable {files after : FileSystem} {ending : Ending} {path source target : Bytes} {spot : Spot}
  {location : Location} {entry : Entry} (privileged : files.privileged = true)

include privileged

theorem resolve_eq_ok_iff : files.resolve ending path = .ok spot ↔ Leads files ending path spot := by
  unfold resolve Leads start
  cases parsed : Path.ofArgument path with
  | error fault => simp [bind, Except.bind]
  | ok parts =>
    simp only [bind, Except.bind, Except.ok.injEq, exists_eq_left']
    rw [← walk_eq_ok_iff privileged]
    cases files.walk ending linkLimit (if parts.absolute then [] else files.workingDirectory) parts.names
      parts.slash with
    | error fault => exact ⟨nofun, nofun⟩
    | ok found =>
      change (Except.ok found : Answer Spot) = .ok spot ↔ _
      simp

theorem lookUp_eq_ok_iff :
    files.lookUp ending path = .ok (location, entry) ↔
      ∃ spot, Leads files ending path spot ∧ spot.location = location ∧ files.get? location = some entry ∧
        (spot.slash = true → entry.isDirectory = true) := by
  rw [lookUp_eq_ok_iff_resolve]
  simp only [resolve_eq_ok_iff privileged]

/-- Adding and removing names is allowed in every directory that a path leads to. -/
theorem mayChange_of_enter {directory : Location} (enter : files.passage directory = .enter) :
    files.mayChange directory = true := by
  obtain ⟨mode, stands⟩ := passage_eq_enter.mp enter
  simp [mayChange, stands, admits_of_privileged privileged]

end

/-- A name to which a path leads stands in a directory. -/
theorem Arrives.enter {files : FileSystem} {ending : Ending} {walker : Walker} {slash final : Bool}
    {directory : Location} {name : Name} (arrives : Arrives files ending walker slash (.named directory name final)) :
    files.passage directory = .enter := by
  generalize spot : Spot.named directory name final = there at arrives
  induction arrives with
  | ended => cases spot
  | pass _ _ _ ih => exact ih spot
  | follow _ _ _ _ _ _ ih => exact ih spot
  | named enter _ _ _ =>
    cases spot
    exact enter

theorem Leads.enter {files : FileSystem} {ending : Ending} {path : Bytes} {directory : Location} {name : Name}
    {slash : Bool} (leads : Leads files ending path (.named directory name slash)) :
    files.passage directory = .enter := by
  obtain ⟨parts, -, arrives⟩ := leads
  exact arrives.enter

/-- A slash that a walk has passed stays with it. -/
theorem Arrives.slash {files : FileSystem} {ending : Ending} {walker : Walker} {slash : Bool} {directory : Location}
    {name : Name} (arrives : Arrives files ending walker slash (.named directory name false)) : slash = false := by
  generalize spot : Spot.named directory name false = there at arrives
  induction arrives with
  | ended => cases spot
  | pass _ _ _ ih => exact ih spot
  | follow _ _ _ _ _ _ ih => exact (Bool.or_eq_false_iff.mp (ih spot)).1
  | named _ _ _ _ =>
    cases spot
    rfl

/-- Without a slash at its end a path leads to the same name for every call that follows no link there. -/
theorem Arrives.unfollowed {files : FileSystem} {ending other : Ending} {walker : Walker} {directory : Location}
    {name : Name} (arrives : Arrives files ending walker false (.named directory name false))
    (stays : ending.follows false = false)
    (alsoStays : other.follows false = true → ∀ body, files.passage (name :: directory) ≠ .follow body) :
    Arrives files other walker false (.named directory name false) := by
  generalize spot : Spot.named directory name false = there at arrives
  generalize unslashed : false = slash at arrives
  induction arrives with
  | ended => cases spot
  | pass step inner _ ih => exact .pass step inner (ih spot unslashed)
  | follow _ _ _ follows _ _ =>
    subst unslashed
    cases stays.symm.trans follows
  | named enter plain _ _ =>
    cases spot
    exact .named enter plain alsoStays nofun

/-- Without a slash, a walk that does not follow the last name ends at the entry itself. -/
theorem Arrives.entry_of_unfollowed {files : FileSystem} {ending : Ending} {walker : Walker} {spot : Spot}
    (stays : ending.follows false = false) (arrives : Arrives files ending walker false spot) :
    Arrives files .entry walker false spot := by
  generalize unslashed : false = slash at arrives
  induction arrives with
  | ended => exact .ended
  | pass step inner _ ih => exact .pass step inner (ih unslashed)
  | follow _ _ _ follows _ _ =>
    subst unslashed
    cases stays.symm.trans follows
  | named enter plain _ _ =>
    subst unslashed
    exact .named enter plain nofun nofun

theorem Leads.unfollowed {files : FileSystem} {ending other : Ending} {path : Bytes} {directory : Location}
    {name : Name} (leads : Leads files ending path (.named directory name false))
    (stays : ending.follows false = false)
    (alsoStays : other.follows false = true → ∀ body, files.passage (name :: directory) ≠ .follow body) :
    Leads files other path (.named directory name false) := by
  obtain ⟨parts, argument, arrives⟩ := leads
  have unslashed := arrives.slash
  rw [unslashed] at arrives
  exact ⟨parts, argument, by rw [unslashed]; exact arrives.unfollowed stays alsoStays⟩

theorem Leads.entry {files : FileSystem} {ending : Ending} {path : Bytes} {directory : Location} {name : Name}
    (leads : Leads files ending path (.named directory name false)) (stays : ending.follows false = false) :
    Leads files .entry path (.named directory name false) :=
  leads.unfollowed stays fun follows => absurd follows Bool.false_ne_true

theorem Leads.status {files : FileSystem} {ending : Ending} {path : Bytes} {directory : Location} {name : Name}
    (leads : Leads files ending path (.named directory name false)) (stays : ending.follows false = false) :
    Leads files .status path (.named directory name false) :=
  leads.unfollowed stays fun follows => absurd follows Bool.false_ne_true

/-- Something is found where a path leads to a name and something stands there. -/
theorem Leads.lookUp {files : FileSystem} (privileged : files.privileged = true) {ending : Ending} {path : Bytes}
    {directory : Location} {name : Name} {entry : Entry} (leads : Leads files ending path (.named directory name false))
    (stands : files.get? (name :: directory) = some entry) :
    files.lookUp ending path = .ok (name :: directory, entry) :=
  (lookUp_eq_ok_iff privileged).mpr ⟨_, leads, rfl, stands, fun slashed => absurd slashed Bool.false_ne_true⟩

/-- Something is present where a path leads to a name just where something stands there. -/
theorem Leads.isPresent {files : FileSystem} (privileged : files.privileged = true) {path : Bytes} {directory : Location}
    {name : Name} (leads : Leads files .status path (.named directory name false)) :
    files.isPresent path = (files.get? (name :: directory)).isSome := by
  have looked := lookUp_of_resolve ((resolve_eq_ok_iff privileged).mpr leads)
  cases stands : files.get? (name :: directory) with
  | none => simp [FileSystem.isPresent, looked, Spot.location, stands]
  | some entry => simp [FileSystem.isPresent, looked, Spot.location, Spot.slash, stands]

section

variable {files after : FileSystem} {path source target : Bytes} {location : Location}
  (privileged : files.privileged = true)

include privileged

/-- A file that is opened for writing is the one to which the path leads, and a new one where there was
    none. -/
theorem create_eq_ok (created : files.create path = .ok (location, after)) :
    ∃ directory name slash mode, Leads files .creation path (.named directory name slash) ∧
      location = name :: directory ∧ files.passage location = .blocked ∧
      after = files.put location (.file mode []) := by
  obtain ⟨directory, name, slash, mode, resolved, others⟩ := resolve_of_create created
  exact ⟨directory, name, slash, mode, (resolve_eq_ok_iff privileged).mp resolved, others⟩

/-- A name is removed just where the path leads to a file or a link, with no slash behind it. -/
theorem unlink_eq_ok_iff :
    files.unlink path = .ok after ↔ ∃ directory name entry, Leads files .entry path (.named directory name false) ∧
      files.get? (name :: directory) = some entry ∧ entry.isDirectory = false ∧
      after = files.erase (name :: directory) := by
  rw [unlink_eq_ok_iff_resolve]
  simp only [resolve_eq_ok_iff privileged]
  constructor
  · rintro ⟨directory, name, entry, leads, stands, -, others⟩
    exact ⟨directory, name, entry, leads, stands, others⟩
  · rintro ⟨directory, name, entry, leads, stands, others⟩
    exact ⟨directory, name, entry, leads, stands, mayChange_of_enter privileged leads.enter, others⟩

/-- A name is moved just where it is one of a file or a link, and what it replaces is no directory. -/
theorem rename_eq_ok_iff :
    files.rename source target = .ok after ↔ ∃ oldDirectory oldName newDirectory newName entry,
      Leads files .entry source (.named oldDirectory oldName false) ∧
      Leads files .entry target (.named newDirectory newName false) ∧
      files.get? (oldName :: oldDirectory) = some entry ∧ entry.isDirectory = false ∧
      files.passage (newName :: newDirectory) ≠ .enter ∧
      after = (files.erase (oldName :: oldDirectory)).put (newName :: newDirectory) entry := by
  rw [rename_eq_ok_iff_resolve]
  simp only [resolve_eq_ok_iff privileged]
  constructor
  · rintro ⟨oldDirectory, oldName, newDirectory, newName, entry, leads, leadsNew, stands, plain, -, -, others⟩
    exact ⟨oldDirectory, oldName, newDirectory, newName, entry, leads, leadsNew, stands, plain, others⟩
  · rintro ⟨oldDirectory, oldName, newDirectory, newName, entry, leads, leadsNew, stands, plain, others⟩
    exact ⟨oldDirectory, oldName, newDirectory, newName, entry, leads, leadsNew, stands, plain,
      mayChange_of_enter privileged leads.enter, mayChange_of_enter privileged leadsNew.enter, others⟩

end

/-! ### What the calls change -/

theorem passage_put (files : FileSystem) (location other : Location) (entry : Entry) :
    (files.put location entry).passage other =
      if other = location then .ofEntry (some entry) else files.passage other := by
  unfold passage
  rw [get?_put]
  split <;> rfl

theorem passage_erase (files : FileSystem) (location other : Location) :
    (files.erase location).passage other = if other = location then .blocked else files.passage other := by
  unfold passage
  rw [get?_erase]
  split <;> rfl

/-- Two file systems in which every walk goes the same way. -/
structure Alike (files after : FileSystem) : Prop where
  passage : ∀ location, after.passage location = files.passage location
  workingDirectory : after.workingDirectory = files.workingDirectory
  privileged : after.privileged = files.privileged

namespace Alike

theorem refl (files : FileSystem) : Alike files files := ⟨fun _ => rfl, rfl, rfl⟩

theorem trans {files middle after : FileSystem} (first : Alike files middle) (second : Alike middle after) :
    Alike files after :=
  ⟨fun location => (second.passage location).trans (first.passage location),
    second.workingDirectory.trans first.workingDirectory, second.privileged.trans first.privileged⟩

theorem symm {files after : FileSystem} (alike : Alike files after) : Alike after files :=
  ⟨fun location => (alike.passage location).symm, alike.workingDirectory.symm, alike.privileged.symm⟩

/-- An entry that is put in place of another leaves walks as they are where it offers them the same. -/
theorem put {files : FileSystem} {location : Location} {entry : Entry}
    (same : Passage.ofEntry (some entry) = files.passage location) : Alike files (files.put location entry) := by
  refine ⟨fun other => ?_, rfl, rfl⟩
  rw [passage_put]
  split
  next here => rw [same, here]
  next => rfl

/-- A file that is taken away leaves walks as they are, since they did not go on from it. -/
theorem erase {files : FileSystem} {location : Location} (blocked : files.passage location = .blocked) :
    Alike files (files.erase location) := by
  refine ⟨fun other => ?_, rfl, rfl⟩
  rw [passage_erase]
  split
  next here => rw [here, blocked]
  next => rfl

/-- What is alike stays so when a location is freed in both. -/
theorem erase_both {files after : FileSystem} (alike : Alike files after) (location : Location) :
    Alike (files.erase location) (after.erase location) := by
  refine ⟨fun other => ?_, alike.workingDirectory, alike.privileged⟩
  rw [passage_erase, passage_erase, alike.passage]

end Alike

theorem ofEntry_mapMode (entry : Entry) (change : Mode → Mode) :
    Passage.ofEntry (some (entry.mapMode change)) = .ofEntry (some entry) := by
  cases entry <;> rfl

theorem ofEntry_append (entry : Entry) (octets : Bytes) :
    Passage.ofEntry (some (entry.append octets)) = .ofEntry (some entry) := by
  cases entry <;> rfl

theorem alike_create {files after : FileSystem} {path : Bytes} {location : Location}
    (created : files.create path = .ok (location, after)) : Alike files after := by
  obtain ⟨_, _, _, mode, -, -, blocked, rfl⟩ := resolve_of_create created
  exact .put blocked.symm

theorem alike_write (files : FileSystem) (location : Location) (octets : Bytes) :
    Alike files (files.write location octets) := by
  unfold write
  split
  next entry stands => exact .put (by rw [ofEntry_append, passage, stands])
  next => exact .refl files

theorem alike_changeMode {files after : FileSystem} {path : Bytes} {change : Mode → Mode}
    (changed : files.changeMode path change = .ok after) : Alike files after := by
  obtain ⟨location, entry, found, rfl⟩ := changeMode_eq_ok changed
  obtain ⟨spot, -, rfl, stands, -⟩ := lookUp_eq_ok_iff_resolve.mp found
  exact .put (by rw [ofEntry_mapMode, passage, stands])

/-- A path that leads to a spot does so in a file system that opens all that the first does, and is like it at
    that spot. -/
theorem Leads.of_opens {files other : FileSystem} {ending : Ending} {path : Bytes} {spot : Spot}
    (opens : Opens files other) (sameStart : other.workingDirectory = files.workingDirectory)
    (leads : Leads files ending path spot) (lands : other.passage spot.location = files.passage spot.location) :
    Leads other ending path spot := by
  obtain ⟨parts, argument, arrives⟩ := leads
  refine ⟨parts, argument, ?_⟩
  have starts : other.start parts = files.start parts := by unfold start; rw [sameStart]
  rw [starts]
  refine arrives.transfer (fun _ => False) nofun (fun location _ => opens location) (fun _ _ _ _ _ _ _ => id) ?_
  rintro directory name slash rfl
  exact lands

theorem Alike.leads {files after : FileSystem} (alike : Alike files after) {ending : Ending} {path : Bytes} {spot : Spot}
    (leads : Leads files ending path spot) : Leads after ending path spot :=
  leads.of_opens (fun location _ => alike.passage location) alike.workingDirectory (alike.passage _)

/-- Where a name is removed, the file system without it leads on nowhere else than before. -/
theorem opens_erase (files : FileSystem) (location : Location) : Opens (files.erase location) files := by
  intro other leadsOn
  rw [passage_erase] at leadsOn ⊢
  split
  next same => exact absurd (if_pos same) leadsOn
  next => rfl

/-- What a path leads to without some name, other than that name, it leads to with it. -/
theorem Leads.of_erase {files : FileSystem} {location : Location} {ending : Ending} {path : Bytes} {spot : Spot}
    (leads : Leads (files.erase location) ending path spot) (elsewhere : spot.location ≠ location) :
    Leads files ending path spot := by
  refine leads.of_opens (opens_erase files location) rfl ?_
  rw [passage_erase, if_neg elsewhere]

end FileSystem

end ActorSurface
