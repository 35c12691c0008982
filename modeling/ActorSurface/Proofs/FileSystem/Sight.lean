import ActorSurface.Proofs.FileSystem.Answers

/-!
Walks of a process that is not privileged. It may not pass through a directory that it has no right to search, and
to a walk such a directory is like a file. The file system with these directories shown as files (`sight`) is walked
by a privileged process just as the first is by the other (`resolve_eq_ok_iff_sight`), so that what holds of
privileged walks holds of all of them. The calls that go through are told by it for every process.
-/

namespace ActorSurface

namespace FileSystem

/-- Whether a process may pass through a directory of some mode. -/
def searches (privileged : Bool) (mode : Mode) : Bool :=
  privileged || mode &&& Mode.ownerSearch == Mode.ownerSearch

/-- An entry as the walks of a process find it. -/
def Entry.sighted (privileged : Bool) : Entry → Entry
  | .directory mode => if searches privileged mode then .directory mode else .file mode []
  | .file mode content => .file mode content
  | .link body => .link body

/-- The file system as a privileged process would have to find it to walk as this one does. -/
def sight (files : FileSystem) : FileSystem :=
  ⟨files.entries.map fun (location, entry) => (location, entry.sighted files.privileged), files.workingDirectory, true⟩

theorem get?_sight (files : FileSystem) (location : Location) :
    files.sight.get? location = (files.get? location).map (·.sighted files.privileged) := by
  have lookup : ∀ entries : List (Location × Entry),
      (entries.map fun (location, entry) => (location, entry.sighted files.privileged)).lookup location =
        (entries.lookup location).map (·.sighted files.privileged) := by
    intro entries
    induction entries with
    | nil => rfl
    | cons head entries ih =>
      obtain ⟨place, entry⟩ := head
      rw [List.map_cons, List.lookup_cons, List.lookup_cons]
      by_cases here : location = place
      · simp [here]
      · simpa [beq_eq_false_iff_ne.mpr here] using ih
  exact lookup files.entries

theorem sight_put (files : FileSystem) (location : Location) (entry : Entry) :
    (files.put location entry).sight = files.sight.put location (entry.sighted files.privileged) := by
  simp [sight, put, List.filter_map, Function.comp_def]

theorem sight_erase (files : FileSystem) (location : Location) :
    (files.erase location).sight = files.sight.erase location := by
  simp [sight, erase, List.filter_map, Function.comp_def]

/-- A link is seen as the link that it is. -/
theorem passage_sight_eq_follow {files : FileSystem} {location : Location} {body : Bytes} :
    files.sight.passage location = .follow body ↔ files.get? location = some (.link body) := by
  rw [passage_eq_follow, get?_sight]
  cases files.get? location with
  | none => simp
  | some entry =>
    cases entry with
    | file mode content => simp [Entry.sighted]
    | directory mode =>
      have notLink : (Entry.directory mode).sighted files.privileged ≠ .link body := by
        show (if searches files.privileged mode then Entry.directory mode else .file mode []) ≠ .link body
        split <;> simp
      simp [notLink]
    | link other => simp [Entry.sighted]

/-- Walks of a privileged process find what is there. -/
theorem passage_sight_of_privileged {files : FileSystem} (privileged : files.privileged = true) (location : Location) :
    files.sight.passage location = files.passage location := by
  rw [passage, passage, get?_sight]
  cases files.get? location with
  | none => rfl
  | some entry =>
    cases entry with
    | file mode content => rfl
    | link body => rfl
    | directory mode => simp [Entry.sighted, searches, privileged]

/-- Whether a directory may be searched is not changed with its rights to write. -/
theorem searches_protect (privileged readOnly : Bool) (mode : Mode) :
    searches privileged (Mode.protect readOnly mode) = searches privileged mode := by
  have kept : Mode.protect readOnly mode &&& Mode.ownerSearch = mode &&& Mode.ownerSearch := by
    revert mode readOnly
    decide +kernel
  rw [searches, kept, searches]

theorem ofEntry_sighted_protect (privileged readOnly : Bool) (entry : Entry) :
    Passage.ofEntry (some ((entry.mapMode (Mode.protect readOnly)).sighted privileged)) =
      .ofEntry (some (entry.sighted privileged)) := by
  cases entry with
  | file mode content => rfl
  | link body => rfl
  | directory mode =>
    simp only [Entry.mapMode, Entry.sighted, searches_protect]
    by_cases searchable : searches privileged mode = true
    · rw [if_pos searchable, if_pos searchable]
      rfl
    · rw [if_neg searchable, if_neg searchable]
      rfl

/-! ### Walks -/

section

variable {files : FileSystem} {ending : Ending} {spot : Spot}

/-- Along names, the process and the privileged one go the same way. -/
theorem walkNames_sight {onward other : Onward}
    (behind : ∀ here names slash, onward here names slash = .ok spot ↔ other here names slash = .ok spot)
    (slash : Bool) (names : List Name) (here : Location) :
    walkNames files ending onward slash names here = .ok spot ↔
      walkNames files.sight ending other slash names here = .ok spot := by
  induction names generalizing here with
  | nil => rfl
  | cons name rest ih =>
    rw [walkNames.eq_def, walkNames.eq_def]
    have allowed : ∀ needed mode, files.sight.admits needed mode = true := fun _ _ => rfl
    have asked : ∀ mode, files.admits Mode.ownerSearch mode = searches files.privileged mode := fun _ => rfl
    simp only [get?_sight, allowed, asked]
    cases stands : files.get? here with
    | none => simp
    | some entry =>
      cases entry with
      | file mode content => simp [Entry.sighted]
      | link body => simp [Entry.sighted]
      | directory mode =>
        by_cases searchable : searches files.privileged mode = true
        case neg => simp [Entry.sighted, searchable]
        simp only [Option.map_some, Entry.sighted, searchable, if_true, Bool.not_true, Bool.false_eq_true, if_false]
        by_cases isDot : name = dot
        · rw [if_pos isDot, if_pos isDot]
          exact ih here
        rw [if_neg isDot, if_neg isDot]
        by_cases isDotDot : name = dotDot
        · rw [if_pos isDotDot, if_pos isDotDot]
          exact ih here.above
        rw [if_neg isDotDot, if_neg isDotDot]
        by_cases refused : rest = [] ∧ slash = true ∧ ending = .creation
        · rw [if_pos refused, if_pos refused]
        rw [if_neg refused, if_neg refused]
        by_cases long : longestName < name.length
        · rw [if_pos long, if_pos long]
        rw [if_neg long, if_neg long]
        -- What stands at the name is followed, passed or left alike.
        cases there : files.get? (name :: here) with
        | none => cases rest <;> rfl
        | some entry =>
          cases entry with
          | file mode content =>
            cases rest with
            | nil => rfl
            | cons next later => exact ih (name :: here)
          | directory mode =>
            by_cases searchable : searches files.privileged mode = true
            · simp only [Option.map_some, searchable, if_true]
              cases rest with
              | nil => rfl
              | cons next later => exact ih (name :: here)
            · simp only [Option.map_some, searchable]
              cases rest with
              | nil => rfl
              | cons next later => exact ih (name :: here)
          | link body =>
            simp only [Option.map_some]
            cases rest with
            | nil =>
              dsimp only
              by_cases follows : ending.follows slash = true
              · rw [if_pos follows, if_pos follows]
                exact behind _ _ _
              · rw [if_neg follows, if_neg follows]
            | cons next later => exact behind _ _ _

theorem walk_sight (links : Nat) (here : Location) (names : List Name) (slash : Bool) :
    files.walk ending links here names slash = .ok spot ↔ files.sight.walk ending links here names slash = .ok spot := by
  induction links generalizing here names slash with
  | zero =>
    refine walkNames_sight (fun here names slash => ?_) slash names here
    simp
  | succ links ih => exact walkNames_sight (fun here names slash => ih here names slash) slash names here

/-- A path is resolved by any process just where it leads in what the process sees. -/
theorem resolve_eq_ok_iff_sight {path : Bytes} :
    files.resolve ending path = .ok spot ↔ Leads files.sight ending path spot := by
  unfold resolve Leads start
  cases parsed : Path.ofArgument path with
  | error fault => simp [bind, Except.bind]
  | ok parts =>
    simp only [bind, Except.bind, Except.ok.injEq, exists_eq_left']
    have same : files.sight.workingDirectory = files.workingDirectory := rfl
    have privileged : files.sight.privileged = true := rfl
    rw [same, ← walk_eq_ok_iff privileged, ← walk_sight]
    cases files.walk ending linkLimit (if parts.absolute then [] else files.workingDirectory) parts.names
      parts.slash with
    | error fault => exact ⟨nofun, nofun⟩
    | ok found =>
      change (Except.ok found : Answer Spot) = .ok spot ↔ _
      simp

end

end FileSystem

end ActorSurface
