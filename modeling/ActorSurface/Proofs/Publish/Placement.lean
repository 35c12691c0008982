import ActorSurface.Proofs.FileSystem.Siblings
import ActorSurface.Publish

/-!
What a publication that goes through leaves, told of the states of the file system between its calls
(`Carried`). The text is written to the file that the temporary name leads to, which may be behind links; what
is moved to the target is the entry of the temporary name, a link where it was one. Either way the target
leads to the file with the text then, and nothing is at the temporary name (`Carried.placed`).
-/

namespace ActorSurface

namespace FileSystem

/-- Bytes that are written to a file stand at its end, and walks stay as they are. -/
theorem writes_content (writes : List Bytes) {files : FileSystem} {location : Location} {mode : Mode} {content : Bytes}
    (stands : files.get? location = some (.file mode content)) :
    Alike files (writes.foldl (fun files octets => files.write location octets) files) ∧
      (writes.foldl (fun files octets => files.write location octets) files).get? location =
        some (.file mode (content ++ writes.flatten)) := by
  induction writes generalizing files content with
  | nil => exact ⟨.refl files, by simpa using stands⟩
  | cons octets writes ih =>
    have written : (files.write location octets).get? location = some (.file mode (content ++ octets)) := by
      simp [write, stands, Entry.append]
    obtain ⟨alike, holds⟩ := ih written
    exact ⟨(alike_write files location octets).trans alike, by simpa [List.append_assoc] using holds⟩

/-- What clears a target away, where anything is there. -/
def Cleared (target : Bytes) (files after : FileSystem) : Prop :=
  (files.isPresent target = false ∧ after = files) ∨
    ∃ unprotected, files.changeMode target (Mode.protect false) = .ok unprotected ∧
      unprotected.unlink target = .ok after

/-- A file system after a location was freed. Files elsewhere keep their content. -/
structure Freed (location : Location) (files after : FileSystem) : Prop where
  free : after.get? location = none
  passage : ∀ other, other ≠ location → after.passage other = files.passage other
  content : ∀ other mode content, other ≠ location → files.get? other = some (.file mode content) →
    ∃ mode, after.get? other = some (.file mode content)

theorem changeMode_content {files after : FileSystem} (privileged : files.privileged = true) {path : Bytes}
    {change : Mode → Mode} (changed : files.changeMode path change = .ok after) {location : Location} {mode : Mode}
    {content : Bytes} (stands : files.get? location = some (.file mode content)) :
    ∃ mode, after.get? location = some (.file mode content) := by
  obtain ⟨changedLocation, entry, found, rfl⟩ := changeMode_eq_ok changed
  obtain ⟨-, -, -, stood, -⟩ := (lookUp_eq_ok_iff privileged).mp found
  rw [get?_put]
  split
  next same =>
    subst same
    cases stood.symm.trans stands
    exact ⟨change mode, rfl⟩
  next => exact ⟨mode, stands⟩

theorem Cleared.process {target : Bytes} {files after : FileSystem} (privileged : files.privileged = true)
    (cleared : Cleared target files after) :
    after.privileged = true ∧ after.workingDirectory = files.workingDirectory := by
  rcases cleared with ⟨-, rfl⟩ | ⟨unprotected, changed, removed⟩
  · exact ⟨privileged, rfl⟩
  · have alike := alike_changeMode changed
    have isPrivileged := alike.privileged.trans privileged
    obtain ⟨_, _, _, -, -, -, rfl⟩ := (unlink_eq_ok_iff isPrivileged).mp removed
    exact ⟨isPrivileged, alike.workingDirectory⟩

/-- Clearing a target frees the location that the path leads to then. -/
theorem freed_of_cleared {target : Bytes} {files after : FileSystem} (privileged : files.privileged = true)
    (cleared : Cleared target files after) {directory : Location} {name : Name}
    (leads : Leads after .entry target (.named directory name false)) : Freed (name :: directory) files after := by
  rcases cleared with ⟨absent, rfl⟩ | ⟨unprotected, changed, removed⟩
  · refine ⟨?_, fun _ _ => rfl, fun _ mode _ _ stands => ⟨mode, stands⟩⟩
    have statusLeads : Leads after .status target (.named directory name false) := leads.status rfl
    simpa [statusLeads.isPresent privileged] using absent
  · have alike := alike_changeMode changed
    obtain ⟨holder, final, entry, leadsRemoved, -, -, rfl⟩ :=
      (unlink_eq_ok_iff (alike.privileged.trans privileged)).mp removed
    have same : name :: directory = final :: holder := by
      by_cases same : name :: directory = final :: holder
      · exact same
      · exact congrArg Spot.location ((leads.of_erase same).unique leadsRemoved)
    rw [same]
    refine ⟨by simp, fun other elsewhere => ?_, fun other mode content elsewhere stands => ?_⟩
    · rw [passage_erase, if_neg elsewhere]
      exact alike.passage other
    · rw [get?_erase, if_neg elsewhere]
      exact changeMode_content privileged changed stands

theorem Freed.blocked {location : Location} {files after : FileSystem} (freed : Freed location files after) :
    after.passage location = .blocked := by
  rw [FileSystem.passage, freed.free]
  rfl

/-- Where a location was freed, walks lead on nowhere else than before. -/
theorem Freed.opens {location : Location} {files after : FileSystem} (freed : Freed location files after) :
    Opens after files := by
  intro other leadsOn
  by_cases here : other = location
  · exact absurd (here ▸ freed.blocked) leadsOn
  · exact (freed.passage other here).symm

/-- A publication, of a text in some writes, that goes through: there are states of the file system between its
    calls. -/
def Carried (intent : Publish.Intent) (writes : List Bytes) (files after : FileSystem) : Prop :=
  ∃ file opened cleared moved, files.create intent.temporary = .ok (file, opened) ∧
    Cleared intent.target (writes.foldl (fun files octets => files.write file octets) opened) cleared ∧
    cleared.rename intent.temporary intent.target = .ok moved ∧
    moved.changeMode intent.target (Mode.protect true) = .ok after

theorem suffix_unseparated : separator ∉ Utf8.encode Publish.temporarySuffix := by decide

theorem extended_ne (name : Name) : name ++ Utf8.encode Publish.temporarySuffix ≠ name := by
  intro same
  have empty : Utf8.encode Publish.temporarySuffix = [] := by simpa using same
  revert empty
  decide

/-- A walk to content does not end at a link. -/
theorem Arrives.not_follow {files : FileSystem} {walker : Walker} {slash final : Bool} {directory : Location}
    {name : Name} (arrives : Arrives files .content walker slash (.named directory name final)) (body : Bytes) :
    files.passage (name :: directory) ≠ .follow body := by
  generalize spot : Spot.named directory name final = there at arrives
  induction arrives with
  | ended => cases spot
  | pass _ _ _ ih => exact ih spot
  | follow _ _ _ _ _ _ ih => exact ih spot
  | named _ _ final _ =>
    cases spot
    exact final rfl body

section

variable {before cleared moved : FileSystem} {directory : Location} {name other : Name} {entry : Entry}

theorem passage_moved (isMoved : moved = (cleared.erase (other :: directory)).put (name :: directory) entry)
    (location : Location) :
    moved.passage location =
      if location = name :: directory then .ofEntry (some entry)
      else if location = other :: directory then .blocked else cleared.passage location := by
  rw [isMoved, passage_put, passage_erase]

theorem compatible_moved (isMoved : moved = (cleared.erase (other :: directory)).put (name :: directory) entry)
    (blocked : cleared.passage (name :: directory) = .blocked) : Compatible cleared moved := by
  intro location
  rw [passage_moved isMoved]
  by_cases new : location = name :: directory
  · exact .inr (.inl (new ▸ blocked))
  · rw [if_neg new]
    split
    · exact .inr (.inr rfl)
    · exact .inl rfl

/-- Renaming a link: a walk along its body from the new name arrives where one from the old name did, since it
    comes back to neither of the two. -/
theorem arrives_of_moved_link {body : Bytes} {links : Nat} {slash : Bool} {spot : Spot}
    (freed : ∀ location, location ≠ name :: directory → cleared.passage location = before.passage location)
    (isMoved : moved = (cleared.erase (other :: directory)).put (name :: directory) (.link body)) (plain : Plain name)
    (different : other ≠ name)
    (finds : Arrives moved .content ⟨links, base body directory, (Path.ofBytes body).names⟩ slash spot)
    (present : (moved.get? spot.location).isSome) :
    Arrives before .content ⟨links, base body directory, (Path.ofBytes body).names⟩ slash spot := by
  have link : moved.passage (name :: directory) = .follow body := by
    rw [passage_moved isMoved, if_pos rfl]
    rfl
  have apart : other :: directory ≠ name :: directory := fun same => different (List.cons.inj same).1
  have same : ∀ location, location ≠ name :: directory → location ≠ other :: directory →
      before.passage location = moved.passage location := by
    intro location notNew notOld
    rw [passage_moved isMoved, if_neg notNew, if_neg notOld, freed location notNew]
  refine finds.transfer (· = name :: directory) ?_ ?_ ?_ ?_
  · rintro location rfl
    simp [link]
  · intro location notNew leadsOn
    refine same location notNew fun old => leadsOn ?_
    rw [passage_moved isMoved, if_neg notNew, if_pos old]
  · rintro ⟨left, here, names⟩ next rest _ reach rfl _ back
    obtain ⟨rfl, rfl⟩ := List.cons.inj back
    have again : Arrives moved .content ⟨links, base body here, (Path.ofBytes body).names ++ []⟩ slash spot := by
      rw [List.append_nil]
      exact finds
    exact not_arrives_of_loop plain link reach links again
  · rintro holder final slash rfl
    refine same _ (fun new => ?_) fun old => ?_
    · exact finds.not_follow body (by rw [new]; exact link)
    · change (moved.get? (final :: holder)).isSome = true at present
      rw [old, isMoved, get?_put, if_neg apart, get?_erase, if_pos rfl] at present
      cases present

/-- Renaming within a directory: the new name leads to the content to which a new file at the old name was
    written. -/
theorem content_of_moved {left : Nat} {spot : Spot} {holder : Location} {final : Name} {slash : Bool}
    (freed : ∀ location, location ≠ name :: directory → cleared.passage location = before.passage location)
    (isMoved : moved = (cleared.erase (other :: directory)).put (name :: directory) entry)
    (stands : cleared.get? (other :: directory) = some entry) (notDirectory : entry.isDirectory = false)
    (plain : Plain name) (plainOther : Plain other) (different : other ≠ name)
    (creates : Arrives before .creation ⟨left, directory, [other]⟩ false (.named holder final slash))
    (finds : Arrives moved .content ⟨left, directory, [name]⟩ false spot)
    (present : (moved.get? spot.location).isSome) :
    moved.get? spot.location = cleared.get? (final :: holder) ∧ final :: holder ≠ name :: directory := by
  have apart : other :: directory ≠ name :: directory := fun same => different (List.cons.inj same).1
  have offered : before.passage (other :: directory) = .ofEntry (some entry) := by
    rw [← freed _ apart, passage, stands]
  have new : moved.passage (name :: directory) = .ofEntry (some entry) := by
    rw [passage_moved isMoved, if_pos rfl]
  rcases arrives_last plainOther creates with ⟨isOld, notLink⟩ | ⟨body, less, rfl, follow, -, creates⟩
  · cases isOld
    rcases arrives_last plain finds with ⟨rfl, -⟩ | ⟨body, less, -, follow, -, -⟩
    · refine ⟨?_, apart⟩
      rw [isMoved, stands]
      simp [Spot.location]
    · exact absurd (offered.trans (new.symm.trans follow)) (notLink rfl body)
  · obtain rfl : entry = .link body := by
      rw [offered] at follow
      cases entry <;> simp_all [Passage.ofEntry, Entry.isDirectory]
    rcases arrives_last plain finds with ⟨-, notLink⟩ | ⟨same, more, links, followNew, -, finds⟩
    · exact absurd new (notLink rfl body)
    · obtain rfl : body = same := by simpa [new, Passage.ofEntry] using followNew
      obtain rfl : less = more := Nat.succ.inj links
      obtain rfl := (arrives_of_moved_link freed isMoved plain different finds present).unique creates.content
      have notNew : final :: holder ≠ name :: directory := by
        intro back
        exact finds.not_follow body (by rw [back]; exact new)
      have notOld : final :: holder ≠ other :: directory := by
        intro back
        change (moved.get? (final :: holder)).isSome = true at present
        rw [back, isMoved, get?_put, if_neg apart, get?_erase, if_pos rfl] at present
        cases present
      refine ⟨?_, notNew⟩
      change moved.get? (final :: holder) = _
      rw [isMoved, get?_put, if_neg notNew, get?_erase, if_neg notOld]

end

theorem protect_and_allWrite (mode : Mode) : Mode.protect true mode &&& Mode.allWrite = 0 := by
  simp [Mode.protect, BitVec.and_assoc]

/-- A staged text is the content of the file that was created for it. -/
theorem staged_content {files opened : FileSystem} (privileged : files.privileged = true) {path : Bytes}
    {location : Location} (created : files.create path = .ok (location, opened)) (writes : List Bytes) :
    ∃ holder final slash mode, Leads files .creation path (.named holder final slash) ∧
      Alike files (writes.foldl (fun files octets => files.write location octets) opened) ∧
      (writes.foldl (fun files octets => files.write location octets) opened).get? (final :: holder) =
        some (.file mode writes.flatten) := by
  have alike := alike_create created
  obtain ⟨holder, final, slash, mode, creates, rfl, -, rfl⟩ := create_eq_ok privileged created
  have empty : (files.put (final :: holder) (.file mode [])).get? (final :: holder) = some (.file mode []) := by
    rw [get?_put, if_pos rfl]
  obtain ⟨alikeWritten, written⟩ := writes_content writes empty
  exact ⟨holder, final, slash, mode, creates, alike.trans alikeWritten, written⟩

/-- A publication that goes through leaves the text at the target, in a file that nobody may write, and nothing
    at the temporary name. -/
theorem Carried.placed {target : Bytes} {writes : List Bytes} {files after : FileSystem}
    (privileged : files.privileged = true) (carried : Carried (.ofTarget target) writes files after) :
    ∃ location mode, after.lookUp .content target = .ok (location, .file mode writes.flatten) ∧
      mode &&& Mode.allWrite = 0 ∧ after.isPresent (Publish.Intent.ofTarget target).temporary = false := by
  obtain ⟨file, opened, cleared, moved, created, clear, renamed, protects⟩ := carried
  obtain ⟨holder, final, slash, stagedMode, creates, alike, staged⟩ := staged_content privileged created writes
  have privilegedStaged := alike.privileged.trans privileged
  obtain ⟨privilegedCleared, sameStart⟩ := clear.process privilegedStaged
  -- Both names stand in one directory, and the target is free.
  obtain ⟨directory, _, _, name, entry, leadsOld, leadsNew, stands, notDirectory, -, isMoved⟩ :=
    (rename_eq_ok_iff privilegedCleared).mp renamed
  obtain ⟨absolute, names, left, siblings, descends, arrivesOld⟩ :=
    exists_siblings suffix_unseparated leadsNew leadsOld
  obtain ⟨rfl, rfl⟩ := arrives_entry arrivesOld
  have freed := freed_of_cleared privilegedStaged clear leadsNew
  have different := extended_ne name
  have sameElsewhere : ∀ location, location ≠ name :: directory → cleared.passage location = files.passage location :=
    fun location elsewhere => (freed.passage location elsewhere).trans (alike.passage location)
  -- The staged file was created from that directory.
  have opens : Opens cleared files :=
    fun location leadsOn => (alike.passage location).symm.trans (freed.opens location leadsOn)
  have started : cleared.workingDirectory = files.workingDirectory := sameStart.trans alike.workingDirectory
  obtain ⟨right, here, descendsFirst, creates⟩ := (leads_iff_descends siblings.extended).mp creates
  obtain ⟨rfl, rfl⟩ := (descends.of_opens opens started.symm).lockstep (compatible_refl files) rfl descendsFirst
  -- The target is looked up from it too, before it is protected.
  have startedMoved : moved.workingDirectory = cleared.workingDirectory := by rw [isMoved]; rfl
  have privilegedMoved : moved.privileged = true := by rw [isMoved]; exact privilegedCleared
  obtain ⟨location, found, looked, isAfter⟩ := changeMode_eq_ok protects
  obtain ⟨spot, leads, rfl, present, fits⟩ := (lookUp_eq_ok_iff privilegedMoved).mp looked
  obtain ⟨again, there, descendsMoved, finds⟩ := (leads_iff_descends siblings.argument).mp leads
  obtain ⟨rfl, rfl⟩ := descends.lockstep (compatible_moved isMoved freed.blocked) startedMoved descendsMoved
  obtain ⟨isStaged, elsewhere⟩ := content_of_moved sameElsewhere isMoved stands notDirectory siblings.plain
    siblings.plainExtended different creates finds (by rw [present]; rfl)
  obtain ⟨mode, content⟩ := freed.content _ _ _ elsewhere staged
  obtain rfl : found = .file mode writes.flatten := Option.some.inj (present.symm.trans (isStaged.trans content))
  have alikeAfter := alike_changeMode protects
  have privilegedAfter := alikeAfter.privileged.trans privilegedMoved
  refine ⟨spot.location, Mode.protect true mode, ?_, protect_and_allWrite mode, ?_⟩
  · refine (lookUp_eq_ok_iff privilegedAfter).mpr ⟨spot, alikeAfter.leads leads, rfl, ?_, fun slashed => ?_⟩
    · rw [isAfter, get?_put, if_pos rfl]
      rfl
    · cases fits slashed
  · have apart : (name ++ Utf8.encode Publish.temporarySuffix) :: directory ≠ name :: directory :=
      fun same => different (List.cons.inj same).1
    have vacated : moved.get? ((name ++ Utf8.encode Publish.temporarySuffix) :: directory) = none := by
      rw [isMoved, get?_put, if_neg apart, get?_erase, if_pos rfl]
    have descendsAfter := descendsMoved.of_opens (fun location _ => alikeAfter.passage location)
      alikeAfter.workingDirectory
    refine isPresent_of_free privilegedAfter siblings.extended siblings.plainExtended descendsAfter ?_
    rw [isAfter, get?_put]
    split
    next same => cases (same ▸ vacated).symm.trans present
    next => exact vacated

end FileSystem

end ActorSurface
