import ActorSurface.Proofs.FileSystem.Sight
import ActorSurface.Proofs.Publish.Placement

/-!
Which locations the calls of a publication can change, for every process and whatever links there are. The two paths
concern the locations to which they lead at first, by one way or another of treating a link (`Concerned`). As long as
walks lead on nowhere else than they did (`Within`), each call changes a location of these, and that stays so when
names are removed. It does not when a link is moved to the target, but then the target leads where the link led
before (`Moved`).
-/

namespace ActorSurface

namespace FileSystem

open Publish (Intent temporarySuffix)

/-- A path leads to a location, for a call with some ending. -/
def Reaches (files : FileSystem) (path : Bytes) (location : Location) : Prop :=
  ∃ ending spot, files.resolve ending path = .ok spot ∧ spot.location = location

/-- The location of the entry that a path names, links not followed. -/
def At (files : FileSystem) (path : Bytes) (location : Location) : Prop :=
  ∃ spot, files.resolve .entry path = .ok spot ∧ spot.location = location

/-- A location to which a link leads that stands at the end of a path. -/
def Behind (files : FileSystem) (path : Bytes) (location : Location) : Prop :=
  (∃ place body, files.At path place ∧ files.get? place = some (.link body)) ∧ files.Reaches path location

theorem Arrives.exists_entry {files : FileSystem} {ending : Ending} {walker : Walker} {slash : Bool} {spot : Spot}
    (arrives : Arrives files ending walker slash spot) :
    ∃ final, Arrives files .entry walker slash final ∧
      (final.location = spot.location ∨ ∃ body, files.passage final.location = .follow body) := by
  induction arrives with
  | ended => exact ⟨_, .ended, .inl rfl⟩
  | pass step inner _ ih =>
    obtain ⟨final, arrives, ends⟩ := ih
    exact ⟨final, .pass step inner arrives, ends⟩
  | follow enter plain follow _ _ _ _ => exact ⟨_, .named enter plain nofun nofun, .inr ⟨_, follow⟩⟩
  | named enter plain _ _ => exact ⟨_, .named enter plain nofun nofun, .inl rfl⟩

/-- Where a path leads is the entry that it names, or behind the link that this is. -/
theorem Reaches.cases {files : FileSystem} {path : Bytes} {location : Location} (reaches : files.Reaches path location) :
    files.At path location ∨ files.Behind path location := by
  obtain ⟨ending, spot, resolved, rfl⟩ := reaches
  obtain ⟨parts, argument, arrives⟩ := resolve_eq_ok_iff_sight.mp resolved
  obtain ⟨final, entry, ends⟩ := arrives.exists_entry
  have named : files.resolve .entry path = .ok final := resolve_eq_ok_iff_sight.mpr ⟨parts, argument, entry⟩
  rcases ends with same | ⟨body, follow⟩
  · exact .inl ⟨final, named, same⟩
  · exact .inr ⟨⟨_, body, ⟨final, named, rfl⟩, passage_sight_eq_follow.mp follow⟩, ending, spot, resolved, rfl⟩

/-- A location to which one of the two paths of an intent leads. -/
def Concerned (files : FileSystem) (intent : Intent) (location : Location) : Prop :=
  files.Reaches intent.target location ∨ files.Reaches intent.temporary location

/-- A file system that differs from its origin only at locations that concern an intent, and in which walks lead on
    nowhere else. -/
structure Within (intent : Intent) (origin files : FileSystem) : Prop where
  same : ∀ location, ¬ origin.Concerned intent location → files.get? location = origin.get? location
  opens : Opens files.sight origin.sight
  workingDirectory : files.workingDirectory = origin.workingDirectory
  privileged : files.privileged = origin.privileged

theorem passage_sight_of_get? {files other : FileSystem} (privileged : files.privileged = other.privileged)
    {location : Location} (same : files.get? location = other.get? location) :
    files.sight.passage location = other.sight.passage location := by
  rw [passage, passage, get?_sight, get?_sight, same, privileged]

namespace Within

variable {intent : Intent} {origin files after : FileSystem} {path : Bytes} {location : Location}

theorem refl (intent : Intent) (files : FileSystem) : Within intent files files :=
  ⟨fun _ _ => rfl, fun _ _ => rfl, rfl, rfl⟩

/-- Where the paths lead now, one of them led at first, or something was changed there. -/
theorem concerned (within : Within intent origin files) (named : path = intent.target ∨ path = intent.temporary)
    {ending : Ending} {spot : Spot} (resolved : files.resolve ending path = .ok spot) :
    origin.Concerned intent spot.location := by
  by_cases kept : files.get? spot.location = origin.get? spot.location
  · have leads := resolve_eq_ok_iff_sight.mp resolved
    have before := leads.of_opens within.opens within.workingDirectory.symm
      (passage_sight_of_get? within.privileged kept).symm
    have reaches : origin.Reaches path spot.location := ⟨ending, spot, resolve_eq_ok_iff_sight.mpr before, rfl⟩
    rcases named with rfl | rfl
    · exact .inl reaches
    · exact .inr reaches
  · exact Classical.not_not.mp fun unconcerned => kept (within.same _ unconcerned)

theorem erase (within : Within intent origin files) (concerned : origin.Concerned intent location) :
    Within intent origin (files.erase location) := by
  refine ⟨fun other unconcerned => ?_, fun other leadsOn => ?_, within.workingDirectory, within.privileged⟩
  · have elsewhere : other ≠ location := fun same => unconcerned (same ▸ concerned)
    rw [get?_erase, if_neg elsewhere, within.same other unconcerned]
  · rw [sight_erase, passage_erase] at leadsOn ⊢
    by_cases here : other = location
    · exact absurd (if_pos here) leadsOn
    · rw [if_neg here] at leadsOn ⊢
      exact within.opens other leadsOn

theorem put (within : Within intent origin files) (concerned : origin.Concerned intent location) {entry : Entry}
    (alike : Passage.ofEntry (some (entry.sighted files.privileged)) = files.sight.passage location) :
    Within intent origin (files.put location entry) := by
  refine ⟨fun other unconcerned => ?_, fun other leadsOn => ?_, within.workingDirectory, within.privileged⟩
  · have elsewhere : other ≠ location := fun same => unconcerned (same ▸ concerned)
    rw [get?_put, if_neg elsewhere, within.same other unconcerned]
  · rw [sight_put, passage_put] at leadsOn ⊢
    by_cases here : other = location
    · rw [if_pos here, alike] at leadsOn ⊢
      rw [← here] at leadsOn ⊢
      exact within.opens other leadsOn
    · rw [if_neg here] at leadsOn ⊢
      exact within.opens other leadsOn

theorem unlink (within : Within intent origin files) (named : path = intent.target ∨ path = intent.temporary)
    (removed : files.unlink path = .ok after) : Within intent origin after := by
  obtain ⟨_, _, _, resolved, -, -, -, rfl⟩ := unlink_eq_ok_iff_resolve.mp removed
  exact within.erase (within.concerned named resolved)

theorem changeMode (within : Within intent origin files) (named : path = intent.target ∨ path = intent.temporary)
    {readOnly : Bool} (changed : files.changeMode path (Mode.protect readOnly) = .ok after) :
    Within intent origin after := by
  obtain ⟨_, entry, found, rfl⟩ := changeMode_eq_ok changed
  obtain ⟨spot, resolved, rfl, stands, -⟩ := lookUp_eq_ok_iff_resolve.mp found
  refine within.put (within.concerned named resolved) ?_
  rw [ofEntry_sighted_protect, passage, get?_sight, stands]
  rfl

/-- A file that is opened at one of the paths concerns it. -/
theorem create (within : Within intent origin files) (named : path = intent.target ∨ path = intent.temporary)
    (created : files.create path = .ok (location, after)) :
    Within intent origin after ∧ origin.Concerned intent location := by
  obtain ⟨directory, name, _, mode, resolved, rfl, stands, rfl⟩ := create_eq_ok_iff_resolve.mp created
  have concerned : origin.Concerned intent (name :: directory) := within.concerned named resolved
  refine ⟨within.put concerned ?_, concerned⟩
  rw [passage, get?_sight]
  rcases stands with ⟨free, -, -⟩ | ⟨content, occupied, -⟩
  · rw [free]
    rfl
  · rw [occupied]
    rfl

theorem write (within : Within intent origin files) (concerned : origin.Concerned intent location) (octets : Bytes) :
    Within intent origin (files.write location octets) := by
  unfold FileSystem.write
  cases stands : files.get? location with
  | none => exact within
  | some entry =>
    refine within.put concerned ?_
    rw [passage, get?_sight, stands]
    cases entry <;> rfl

theorem writes (within : Within intent origin files) (concerned : origin.Concerned intent location)
    (writes : List Bytes) :
    Within intent origin (writes.foldl (fun files octets => files.write location octets) files) := by
  induction writes generalizing files with
  | nil => exact within
  | cons octets writes ih => exact ih (within.write concerned octets)

theorem cleared (within : Within intent origin files) (clear : Cleared intent.target files after) :
    Within intent origin after := by
  rcases clear with ⟨-, rfl⟩ | ⟨unprotected, changed, removed⟩
  · exact within
  · exact (within.changeMode (.inl rfl) changed).unlink (.inl rfl) removed

end Within

/-! ### Behind a rename -/

/-- Nothing is at the name that a path ends in, where nothing is found at the path. -/
theorem free_of_absent {files : FileSystem} {path : Bytes} (absent : files.isPresent path = false)
    {directory : Location} {name : Name} (resolved : files.resolve .entry path = .ok (.named directory name false)) :
    files.get? (name :: directory) = none := by
  have status : files.resolve .status path = .ok (.named directory name false) :=
    resolve_eq_ok_iff_sight.mpr ((resolve_eq_ok_iff_sight.mp resolved).status rfl)
  cases stands : files.get? (name :: directory) with
  | none => rfl
  | some entry =>
    have looked : files.lookUp .status path = .ok (name :: directory, entry) :=
      lookUp_eq_ok_iff_resolve.mpr ⟨_, status, rfl, stands, nofun⟩
    simp [isPresent, looked] at absent

/-- Nothing is at a target that was cleared away. -/
theorem free_of_cleared {target : Bytes} {files cleared : FileSystem} (clear : Cleared target files cleared)
    {directory : Location} {name : Name} (resolved : cleared.resolve .entry target = .ok (.named directory name false)) :
    cleared.get? (name :: directory) = none := by
  rcases clear with ⟨absent, rfl⟩ | ⟨unprotected, -, removed⟩
  · exact free_of_absent absent resolved
  · obtain ⟨holder, final, _, resolvedRemoved, -, -, -, rfl⟩ := unlink_eq_ok_iff_resolve.mp removed
    by_cases same : name :: directory = final :: holder
    · rw [get?_erase, if_pos same]
    · have leads := resolve_eq_ok_iff_sight.mp resolved
      rw [sight_erase] at leads
      have removes := resolve_eq_ok_iff_sight.mp resolvedRemoved
      exact absurd (congrArg Spot.location ((leads.of_erase same).unique removes)) same

/-- A file system in which the name of a file or a link was changed to a free one of the same directory. -/
def renamed (cleared : FileSystem) (directory : Location) (other name : Name) (entry : Entry) : FileSystem :=
  (cleared.erase (other :: directory)).put (name :: directory) entry

theorem sight_renamed (cleared : FileSystem) (directory : Location) (other name : Name) (entry : Entry) :
    (renamed cleared directory other name entry).sight =
      renamed cleared.sight directory other name (entry.sighted cleared.privileged) := by
  unfold renamed
  rw [sight_put, sight_erase]
  rfl

theorem passage_renamed (cleared : FileSystem) (directory : Location) (other name : Name) (entry : Entry)
    (location : Location) :
    (renamed cleared directory other name entry).passage location =
      if location = name :: directory then .ofEntry (some entry)
      else if location = other :: directory then .blocked else cleared.passage location :=
  passage_moved rfl location

/-- A file system behind the rename of the staged file to a target that is free, up to the modes of what is there. -/
structure Moved (target : Bytes) (origin cleared : FileSystem) (absolute : Bool) (names : List Name) (left : Nat)
    (directory : Location) (name : Name) (entry : Entry) (files : FileSystem) : Prop where
  within : Within (.ofTarget target) origin cleared
  siblings : Siblings target (Utf8.encode temporarySuffix) absolute names name
  descends : Descends cleared.sight absolute names left directory
  old : cleared.resolve .entry (Intent.ofTarget target).temporary =
    .ok (.named directory (name ++ Utf8.encode temporarySuffix) false)
  new : cleared.resolve .entry target = .ok (.named directory name false)
  stands : cleared.get? ((name ++ Utf8.encode temporarySuffix) :: directory) = some entry
  notDirectory : entry.isDirectory = false
  free : cleared.get? (name :: directory) = none
  same : ∀ location, ¬ origin.Concerned (.ofTarget target) location → files.get? location = origin.get? location
  alike : Alike files.sight (renamed cleared directory (name ++ Utf8.encode temporarySuffix) name entry).sight
  present : ∀ location, (files.get? location).isSome =
    ((renamed cleared directory (name ++ Utf8.encode temporarySuffix) name entry).get? location).isSome
  privileged : files.privileged = cleared.privileged

/-- A rename to a target that was cleared away. -/
theorem Within.rename {target : Bytes} {origin files cleared after : FileSystem}
    (within : Within (.ofTarget target) origin cleared) (clear : Cleared target files cleared)
    (moves : cleared.rename (Intent.ofTarget target).temporary target = .ok after) :
    ∃ absolute names left directory name entry,
      Moved target origin cleared absolute names left directory name entry after := by
  obtain ⟨holder, final, directory, name, entry, old, new, stands, notDirectory, -, -, -, rfl⟩ :=
    rename_eq_ok_iff_resolve.mp moves
  have leadsOld := resolve_eq_ok_iff_sight.mp old
  obtain ⟨absolute, names, left, siblings, descends, arrives⟩ :=
    exists_siblings suffix_unseparated (resolve_eq_ok_iff_sight.mp new) leadsOld
  obtain ⟨rfl, rfl⟩ := arrives_entry arrives
  have concerned := within.concerned (.inl rfl) new
  have concernedOld := within.concerned (.inr rfl) old
  refine ⟨absolute, names, left, _, name, entry, within, siblings, descends, old, new, stands, notDirectory,
    free_of_cleared clear new, fun location unconcerned => ?_, .refl _, fun _ => rfl, rfl⟩
  have notNew : location ≠ name :: holder := fun same => unconcerned (same ▸ concerned)
  have notOld : location ≠ (name ++ Utf8.encode temporarySuffix) :: holder := fun same => unconcerned (same ▸ concernedOld)
  rw [get?_put, if_neg notNew, get?_erase, if_neg notOld, within.same location unconcerned]

namespace Moved

variable {target : Bytes} {origin cleared files after : FileSystem} {absolute : Bool} {names : List Name} {left : Nat}
  {directory : Location} {name : Name} {entry : Entry}
  (moved : Moved target origin cleared absolute names left directory name entry files)

include moved

theorem blocked : cleared.sight.passage (name :: directory) = .blocked := by
  rw [passage, get?_sight, moved.free]
  rfl

/-- Both names are still looked for in the directory where they were. -/
theorem arrives {path : Bytes} {final : Name} {ending : Ending} {spot : Spot}
    (argument : Path.ofArgument path = .ok ⟨absolute, names ++ [final], false⟩)
    (resolved : files.resolve ending path = .ok spot) :
    Arrives (renamed cleared.sight directory (name ++ Utf8.encode temporarySuffix) name
      (entry.sighted cleared.privileged)) ending ⟨left, directory, [final]⟩ false spot := by
  have leads := moved.alike.leads (resolve_eq_ok_iff_sight.mp resolved)
  rw [sight_renamed] at leads
  obtain ⟨right, there, descends, arrives⟩ := (leads_iff_descends argument).mp leads
  obtain ⟨rfl, rfl⟩ := moved.descends.lockstep (compatible_moved rfl moved.blocked) rfl descends
  exact arrives

/-- The old name is free. -/
theorem vacated : files.get? ((name ++ Utf8.encode temporarySuffix) :: directory) = none := by
  have apart : (name ++ Utf8.encode temporarySuffix) :: directory ≠ name :: directory :=
    fun same => extended_ne name (List.cons.inj same).1
  have present := moved.present ((name ++ Utf8.encode temporarySuffix) :: directory)
  rw [renamed, get?_put, if_neg apart, get?_erase, if_pos rfl] at present
  simpa using present

/-- The old name is free, so that nothing can be removed there. -/
theorem not_unlink_temporary : files.unlink (Intent.ofTarget target).temporary ≠ .ok after := by
  intro removed
  obtain ⟨holder, final, found, resolved, there, -⟩ := unlink_eq_ok_iff_resolve.mp removed
  obtain ⟨rfl, rfl⟩ := arrives_entry (moved.arrives moved.siblings.extended resolved)
  cases there.symm.trans moved.vacated

/-- Without the new name, walks lead on nowhere else than before the rename. -/
theorem unlink_target (removed : files.unlink target = .ok after) : Within (.ofTarget target) origin after := by
  obtain ⟨holder, final, found, resolved, -, -, -, rfl⟩ := unlink_eq_ok_iff_resolve.mp removed
  obtain ⟨rfl, rfl⟩ := arrives_entry (moved.arrives moved.siblings.argument resolved)
  have concerned := moved.within.concerned (.inl rfl) moved.new
  refine ⟨fun other unconcerned => ?_, fun other leadsOn => ?_, ?_, moved.privileged.trans moved.within.privileged⟩
  · have elsewhere : other ≠ final :: holder := fun same => unconcerned (same ▸ concerned)
    rw [get?_erase, if_neg elsewhere, moved.same other unconcerned]
  · rw [sight_erase, passage_erase] at leadsOn ⊢
    by_cases here : other = final :: holder
    · exact absurd (if_pos here) leadsOn
    rw [if_neg here, ← moved.alike.passage, sight_renamed, passage_renamed, if_neg here] at leadsOn ⊢
    by_cases old : other = (final ++ Utf8.encode temporarySuffix) :: holder
    · exact absurd (if_pos old) leadsOn
    · rw [if_neg old] at leadsOn ⊢
      exact moved.within.opens other leadsOn
  · have started := moved.alike.workingDirectory
    exact started.symm.trans moved.within.workingDirectory

/-- The target leads to itself, or where the staged link led. -/
theorem concerned {spot : Spot} (resolved : files.resolve .content target = .ok spot)
    (there : (files.get? spot.location).isSome = true) : origin.Concerned (.ofTarget target) spot.location := by
  rcases arrives_last moved.siblings.plain (moved.arrives moved.siblings.argument resolved) with
    ⟨rfl, -⟩ | ⟨body, less, rfl, follow, -, finds⟩
  · exact moved.within.concerned (.inl rfl) moved.new
  · obtain rfl : entry = .link body := by
      rw [passage_renamed, if_pos rfl] at follow
      cases entry with
      | file mode content => cases follow
      | directory mode => cases moved.notDirectory
      | link other =>
        cases follow
        rfl
    have present : ((renamed cleared.sight directory (name ++ Utf8.encode temporarySuffix) name
        (.link body)).get? spot.location).isSome = true := by
      have same := sight_renamed cleared directory (name ++ Utf8.encode temporarySuffix) name (.link body)
      rw [moved.present, ← Option.isSome_map, ← get?_sight, same] at there
      exact there
    have before := arrives_of_moved_link (fun _ _ => rfl) rfl moved.siblings.plain (extended_ne name) finds present
    have linked : cleared.sight.passage ((name ++ Utf8.encode temporarySuffix) :: directory) = .follow body := by
      rw [passage, get?_sight, moved.stands]
      rfl
    have leads : Leads cleared.sight .content (Intent.ofTarget target).temporary spot :=
      (leads_iff_descends moved.siblings.extended).mpr ⟨_, _, moved.descends,
        .follow (resolve_eq_ok_iff_sight.mp moved.new).enter moved.siblings.plainExtended linked rfl (by simp) before⟩
    exact moved.within.concerned (.inr rfl) (resolve_eq_ok_iff_sight.mpr leads)

theorem changeMode {readOnly : Bool} (changed : files.changeMode target (Mode.protect readOnly) = .ok after) :
    Moved target origin cleared absolute names left directory name entry after := by
  obtain ⟨_, found, looked, rfl⟩ := changeMode_eq_ok changed
  obtain ⟨spot, resolved, rfl, stands, -⟩ := lookUp_eq_ok_iff_resolve.mp looked
  have concerned := moved.concerned resolved (by rw [stands]; rfl)
  have alike : Alike files.sight (files.put spot.location (found.mapMode (Mode.protect readOnly))).sight := by
    rw [sight_put]
    refine .put ?_
    rw [ofEntry_sighted_protect, passage, get?_sight, stands]
    rfl
  refine ⟨moved.within, moved.siblings, moved.descends, moved.old, moved.new, moved.stands, moved.notDirectory, moved.free,
    fun location unconcerned => ?_, alike.symm.trans moved.alike, fun location => ?_, moved.privileged⟩
  · have elsewhere : location ≠ spot.location := fun same => unconcerned (same ▸ concerned)
    rw [get?_put, if_neg elsewhere, moved.same location unconcerned]
  · rw [← moved.present, get?_put]
    by_cases here : location = spot.location
    · rw [if_pos here, here, stands]
      rfl
    · rw [if_neg here]

end Moved

end FileSystem

end ActorSurface
