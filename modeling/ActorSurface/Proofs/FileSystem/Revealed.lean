import ActorSurface.Proofs.FileSystem.Held
import ActorSurface.Proofs.Publish.Placement

/-!
What stands at the paths of a publication, whoever may see it. A file system is `revealed` as a process finds it that
passes every check; what any other process finds by a path, other than a directory, is found there
(`leads_of_resolve`). Where the two paths of a publication are of nothing but files (`Unobstructed`), none of its calls
changes where a path leads (`Alike`), and each of the two paths stays the name of one location (`Names`).
-/

namespace ActorSurface

namespace FileSystem

open Publish (Intent temporarySuffix)

/-- The file system as it is, whatever its process may search. -/
def revealed (files : FileSystem) : FileSystem :=
  { files with privileged := true }

theorem Alike.revealed {files after : FileSystem} (alike : Alike files after) : Alike files.revealed after.revealed :=
  ⟨alike.passage, alike.workingDirectory, rfl⟩

theorem Rooted.revealed {files : FileSystem} (rooted : Rooted files) : Rooted files.revealed :=
  ⟨rooted.root, rooted.workingDirectory, rooted.above⟩

/-- A process sees what there is, but for directories that it may not search. -/
theorem passage_sight_cases (files : FileSystem) (location : Location) :
    files.sight.passage location = files.passage location ∨
      files.passage location = .enter ∧ files.sight.passage location = .blocked := by
  rw [passage, passage, get?_sight]
  cases files.get? location with
  | none => exact .inl rfl
  | some entry =>
    cases entry with
    | file mode content => exact .inl rfl
    | link body => exact .inl rfl
    | directory mode =>
      by_cases searchable : searches files.privileged mode = true
      · simp [Entry.sighted, searchable, Passage.ofEntry]
      · simp [Entry.sighted, searchable, Passage.ofEntry]

/-- What a process finds by a path, the path leads to, unless that is a directory. -/
theorem leads_of_resolve {files : FileSystem} {ending : Ending} {path : Bytes} {spot : Spot}
    (resolved : files.resolve ending path = .ok spot) (notDirectory : files.passage spot.location ≠ .enter) :
    Leads files.revealed ending path spot := by
  have opens : Opens files.sight files.revealed := by
    intro location leadsOn
    rcases passage_sight_cases files location with same | ⟨-, blocked⟩
    · exact same.symm
    · exact absurd blocked leadsOn
  refine (resolve_eq_ok_iff_sight.mp resolved).of_opens opens rfl ?_
  rcases passage_sight_cases files spot.location with same | ⟨enter, -⟩
  · exact same.symm
  · exact absurd enter notDirectory

theorem leads_of_create {files after : FileSystem} {path : Bytes} {location : Location}
    (created : files.create path = .ok (location, after)) :
    ∃ directory name slash, Leads files.revealed .creation path (.named directory name slash) ∧
      location = name :: directory := by
  obtain ⟨directory, name, slash, _, resolved, rfl, blocked, -⟩ := resolve_of_create created
  refine ⟨directory, name, slash, leads_of_resolve resolved ?_, rfl⟩
  intro enter
  cases blocked.symm.trans enter

/-! ### Names of locations -/

/-- A path is the name of a location, links not followed. -/
def Names (files : FileSystem) (path : Bytes) (location : Location) : Prop :=
  ∃ directory name, Leads files.revealed .status path (.named directory name false) ∧ location = name :: directory

namespace Names

variable {files : FileSystem} {path : Bytes} {location other : Location}

theorem unique (names : Names files path location) (also : Names files path other) : location = other := by
  obtain ⟨directory, name, leads, rfl⟩ := names
  obtain ⟨holder, final, same, rfl⟩ := also
  exact congrArg Spot.location (leads.unique same)

theorem isPresent (names : Names files path location) :
    files.revealed.isPresent path = (files.get? location).isSome := by
  obtain ⟨directory, name, leads, rfl⟩ := names
  exact leads.isPresent rfl

theorem lookUp (names : Names files path location) {entry : Entry} (stands : files.get? location = some entry) :
    files.revealed.lookUp .status path = .ok (location, entry) := by
  obtain ⟨directory, name, leads, rfl⟩ := names
  exact leads.lookUp rfl stands

/-- Walks do not go on from the location of a path at which there is nothing but a file. -/
theorem blocked (names : Names files path location) (vacant : Vacant files.revealed path) :
    files.passage location = .blocked := by
  rw [passage]
  cases stands : files.get? location with
  | none => rfl
  | some entry =>
    obtain ⟨mode, content, rfl⟩ := vacant _ _ (names.lookUp stands)
    rfl

theorem of_alike {after : FileSystem} (alike : Alike files after) (names : Names files path location) :
    Names after path location := by
  obtain ⟨directory, name, leads, rfl⟩ := names
  exact ⟨directory, name, alike.revealed.leads leads, rfl⟩

/-- A location that a process finds under its own name, and that is no directory, has that name. -/
theorem of_resolve {directory : Location} {name : Name}
    (resolved : files.resolve .entry path = .ok (.named directory name false))
    (notDirectory : files.passage (name :: directory) ≠ .enter) : Names files path (name :: directory) :=
  ⟨directory, name, (leads_of_resolve resolved notDirectory).status rfl, rfl⟩

/-- A file is opened at the location of its path, if walks do not go on from there. -/
theorem eq_of_create {after : FileSystem} (names : Names files path location)
    (blocked : files.passage location = .blocked) (created : files.create path = .ok (other, after)) :
    other = location := by
  obtain ⟨directory, name, leads, rfl⟩ := names
  obtain ⟨holder, final, slash, creates, rfl⟩ := leads_of_create created
  have here : Leads files.revealed .creation path (.named directory name false) := by
    refine leads.unfollowed rfl fun _ body follow => ?_
    cases blocked.symm.trans follow
  exact congrArg Spot.location (creates.unique here)

end Names

/-- In a file system with its directories, a path at which there is nothing but a file is the name of a location, or
    nothing is ever found at it where paths lead as they do here. -/
theorem names_or_absent {files : FileSystem} (rooted : Rooted files) {path : Bytes} (vacant : Vacant files.revealed path) :
    (∃ location, Names files path location) ∨ ∀ after, Alike files after → after.revealed.isPresent path = false := by
  by_cases named : ∃ location, Names files path location
  · exact .inl named
  refine .inr fun after alike => ?_
  cases found : after.revealed.lookUp .status path with
  | error fault => simp [FileSystem.isPresent, found]
  | ok answer =>
    obtain ⟨location, entry⟩ := answer
    obtain ⟨spot, leads, rfl, stands, fits⟩ := (lookUp_eq_ok_iff rfl).mp found
    have before : Leads files.revealed .status path spot := alike.symm.revealed.leads leads
    -- What is found would be a directory, and that would have been there from the beginning.
    have enter : files.passage spot.location = .enter := by
      cases spot with
      | directory here => exact before.directory rooted.revealed
      | named directory name slash =>
        cases slash with
        | false => exact absurd ⟨_, directory, name, before, rfl⟩ named
        | true =>
          have isDirectory := fits rfl
          rw [← alike.passage, passage]
          have there : after.get? (Spot.location (.named directory name true)) = some entry := stands
          rw [there]
          cases entry with
          | directory mode => rfl
          | file mode content => cases isDirectory
          | link body => cases isDirectory
    obtain ⟨mode, there⟩ := passage_eq_enter.mp enter
    obtain ⟨_, _, same⟩ := vacant _ _ ((lookUp_eq_ok_iff rfl).mpr ⟨spot, before, rfl, there, fun _ => rfl⟩)
    cases same

/-! ### The two paths of a publication -/

/-- Nothing but files are at the two paths of a publication, in a file system with its directories. -/
structure Unobstructed (origin : FileSystem) (target : Bytes) : Prop where
  rooted : Rooted origin
  atTarget : Vacant origin.revealed target
  atTemporary : Vacant origin.revealed (Intent.ofTarget target).temporary

namespace Unobstructed

variable {origin files after : FileSystem} {target path : Bytes} (clear : Unobstructed origin target)
  (alike : Alike origin files)

include clear in
theorem vacant (named : path = target ∨ path = (Intent.ofTarget target).temporary) : Vacant origin.revealed path := by
  rcases named with rfl | rfl
  · exact clear.atTarget
  · exact clear.atTemporary

include clear alike

/-- What a process may remove, or put something else in place of, is at the location of the path, and is no link. -/
theorem names_of_resolve (named : path = target ∨ path = (Intent.ofTarget target).temporary) {directory : Location}
    {name : Name} (resolved : files.resolve .entry path = .ok (.named directory name false))
    (notDirectory : files.passage (name :: directory) ≠ .enter) :
    Names origin path (name :: directory) ∧ files.passage (name :: directory) = .blocked := by
  have names := (Names.of_resolve resolved notDirectory).of_alike alike.symm
  exact ⟨names, (alike.passage _).trans (names.blocked (clear.vacant named))⟩

theorem unlink (named : path = target ∨ path = (Intent.ofTarget target).temporary)
    (removed : files.unlink path = .ok after) : Alike origin after := by
  obtain ⟨directory, name, entry, resolved, stands, -, notDirectory, rfl⟩ := unlink_eq_ok_iff_resolve.mp removed
  obtain ⟨-, blocked⟩ := clear.names_of_resolve alike named resolved (not_enter_of_get? stands notDirectory)
  exact alike.trans (.erase blocked)

/-- What is renamed is the file at the temporary path, and its new name is that of the target. -/
theorem rename (renamed : files.rename (Intent.ofTarget target).temporary target = .ok after) :
    ∃ source place entry, Names origin (Intent.ofTarget target).temporary source ∧ Names origin target place ∧
      files.get? source = some entry ∧ after = (files.erase source).put place entry ∧ Alike origin after := by
  obtain ⟨directory, name, holder, final, entry, old, new, stands, notDirectory, -, -, free, rfl⟩ :=
    rename_eq_ok_iff_resolve.mp renamed
  obtain ⟨namesOld, blockedOld⟩ :=
    clear.names_of_resolve alike (.inr rfl) old (not_enter_of_get? stands notDirectory)
  obtain ⟨namesNew, blockedNew⟩ := clear.names_of_resolve alike (.inl rfl) new free
  refine ⟨_, _, entry, namesOld, namesNew, stands, rfl, (alike.trans (.erase blockedOld)).trans (.put ?_)⟩
  have vacated : (files.erase (name :: directory)).passage (final :: holder) = .blocked := by
    rw [passage_erase]
    split
    · rfl
    · exact blockedNew
  rw [vacated, ← blockedOld, passage, stands]

/-- A text is staged beside the target, not in it. -/
theorem create_ne {location place : Location} (created : files.create (Intent.ofTarget target).temporary = .ok (location, after))
    (names : Names origin target place) : location ≠ place := by
  obtain ⟨directory, name, leads, rfl⟩ := names.of_alike alike
  obtain ⟨holder, final, slash, creates, rfl⟩ := leads_of_create created
  obtain ⟨_, _, left, siblings, descends, arrives⟩ := exists_siblings suffix_unseparated (leads.entry rfl) creates
  rcases arrives_last siblings.plainExtended arrives with ⟨same, -⟩ | ⟨body, _, _, follow, -, -⟩
  · cases same
    exact fun same => extended_ne name (List.cons.inj same).1
  · -- A link at the temporary path would be found there.
    have status : Leads files.revealed .status (Intent.ofTarget target).temporary
        (.named directory (name ++ Utf8.encode temporarySuffix) false) :=
      (leads_iff_descends siblings.extended).mpr ⟨left, directory, descends,
        .named leads.enter siblings.plainExtended (by simp [Ending.follows]) (by simp)⟩
    have linked : Names origin (Intent.ofTarget target).temporary
        ((name ++ Utf8.encode temporarySuffix) :: directory) := Names.of_alike alike.symm ⟨_, _, status, rfl⟩
    have blocked := (alike.passage _).trans (linked.blocked clear.atTemporary)
    cases blocked.symm.trans follow

end Unobstructed

end FileSystem

end ActorSurface
