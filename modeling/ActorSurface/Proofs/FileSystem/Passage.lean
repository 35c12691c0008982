import ActorSurface.FileSystem.Walk
import Mathlib.Logic.Relation

/-!
Walks as sequences of steps. A walk only asks of a location whether a directory can be entered there or a
link followed (`passage`), and takes one name at a time (`Pass`) until it arrives at a spot (`Arrives`). For
a privileged process this is what the walk of a file system does (`walk_eq_ok_iff`), and it arrives at one
spot only (`Arrives.unique`).
-/

namespace ActorSurface

namespace FileSystem

/-- What a location offers to a walk: a directory to enter, a link to follow, or neither. -/
inductive Passage where
  | enter
  | follow (body : Bytes)
  | blocked
  deriving DecidableEq, Repr

/-- What an entry offers to a walk, if one is there. -/
def Passage.ofEntry : Option Entry → Passage
  | some (.directory _) => .enter
  | some (.link body) => .follow body
  | some (.file _ _) => .blocked
  | none => .blocked

/-- What a location of a file system offers to a walk. -/
def passage (files : FileSystem) (location : Location) : Passage :=
  .ofEntry (files.get? location)

/-- A name that leads down from a directory. -/
def Plain (name : Name) : Prop :=
  name ≠ dot ∧ name ≠ dotDot ∧ name.length ≤ longestName

/-- A walk on its way: the number of links it may still follow, where it is, and the names ahead. -/
structure Walker where
  links : Nat
  here : Location
  names : List Name

/-- Where a link that stands in a directory starts from. -/
def base (body : Bytes) (here : Location) : Location :=
  if (Path.ofBytes body).absolute then [] else here

/-- One step along the names ahead, for a name that others follow. -/
inductive Pass (files : FileSystem) : Walker → Walker → Prop
  | stay {links : Nat} {here : Location} {rest : List Name} : files.passage here = .enter →
      Pass files ⟨links, here, dot :: rest⟩ ⟨links, here, rest⟩
  | up {links : Nat} {here : Location} {rest : List Name} : files.passage here = .enter →
      Pass files ⟨links, here, dotDot :: rest⟩ ⟨links, here.above, rest⟩
  | down {links : Nat} {here : Location} {name : Name} {rest : List Name} : files.passage here = .enter →
      Plain name → files.passage (name :: here) = .enter →
      Pass files ⟨links, here, name :: rest⟩ ⟨links, name :: here, rest⟩
  | through {links : Nat} {here : Location} {name : Name} {rest : List Name} {body : Bytes} :
      files.passage here = .enter → Plain name → files.passage (name :: here) = .follow body →
      Pass files ⟨links + 1, here, name :: rest⟩ ⟨links, base body here, (Path.ofBytes body).names ++ rest⟩

/-- The names ahead are not a last one that leads down. -/
def Walker.Inner (walker : Walker) : Prop :=
  ∀ name, Plain name → walker.names ≠ [name]

/-- Where a walk arrives. The last name is the business of the ending. -/
inductive Arrives (files : FileSystem) (ending : Ending) : Walker → Bool → Spot → Prop
  | ended {links : Nat} {here : Location} {slash : Bool} :
      Arrives files ending ⟨links, here, []⟩ slash (.directory here)
  | pass {walker onward : Walker} {slash : Bool} {spot : Spot} : Pass files walker onward → walker.Inner →
      Arrives files ending onward slash spot → Arrives files ending walker slash spot
  | follow {links : Nat} {here : Location} {name : Name} {slash : Bool} {body : Bytes} {spot : Spot} :
      files.passage here = .enter → Plain name → files.passage (name :: here) = .follow body →
      ending.follows slash = true → ¬ (slash = true ∧ ending = .creation) →
      Arrives files ending ⟨links, base body here, (Path.ofBytes body).names⟩ (slash || (Path.ofBytes body).slash)
        spot →
      Arrives files ending ⟨links + 1, here, [name]⟩ slash spot
  | named {links : Nat} {here : Location} {name : Name} {slash : Bool} : files.passage here = .enter →
      Plain name → (ending.follows slash = true → ∀ body, files.passage (name :: here) ≠ .follow body) →
      ¬ (slash = true ∧ ending = .creation) →
      Arrives files ending ⟨links, here, [name]⟩ slash (.named here name slash)

/-! ### Views of a location -/

theorem passage_eq_enter {files : FileSystem} {location : Location} :
    files.passage location = .enter ↔ ∃ mode, files.get? location = some (.directory mode) := by
  unfold passage
  cases files.get? location with
  | none => simp [Passage.ofEntry]
  | some entry => cases entry <;> simp [Passage.ofEntry]

theorem passage_eq_follow {files : FileSystem} {location : Location} {body : Bytes} :
    files.passage location = .follow body ↔ files.get? location = some (.link body) := by
  unfold passage
  cases files.get? location with
  | none => simp [Passage.ofEntry]
  | some entry => cases entry <;> simp [Passage.ofEntry]

theorem admits_of_privileged {files : FileSystem} (privileged : files.privileged = true) (needed mode : Mode) :
    files.admits needed mode = true := by
  simp [admits, privileged]

theorem dot_ne_dotDot : dot ≠ dotDot := by decide

theorem not_plain_dot : ¬ Plain dot := fun plain => plain.1 rfl

theorem not_plain_dotDot : ¬ Plain dotDot := fun plain => plain.2.1 rfl

/-! ### The walk of a file system

What the walk does with the first name ahead, by what the locations offer. -/

section

variable {files : FileSystem} {ending : Ending} {onward : Onward} {slash : Bool} {here : Location} {name : Name}
  {rest : List Name}

theorem walkNames_shut (shut : files.passage here ≠ .enter) :
    walkNames files ending onward slash (name :: rest) here = .error .notDirectory := by
  unfold walkNames
  split
  next mode entry => exact absurd (passage_eq_enter.mpr ⟨mode, entry⟩) shut
  next => rfl

variable (privileged : files.privileged = true) (enter : files.passage here = .enter)

include privileged enter

theorem walkNames_dot :
    walkNames files ending onward slash (dot :: rest) here = walkNames files ending onward slash rest here := by
  obtain ⟨mode, entry⟩ := passage_eq_enter.mp enter
  rw [walkNames.eq_def]
  simp [entry, admits_of_privileged privileged]

theorem walkNames_dotDot :
    walkNames files ending onward slash (dotDot :: rest) here =
      walkNames files ending onward slash rest here.above := by
  obtain ⟨mode, entry⟩ := passage_eq_enter.mp enter
  rw [walkNames.eq_def]
  simp [entry, admits_of_privileged privileged, dot_ne_dotDot.symm]

theorem walkNames_long (notDot : name ≠ dot) (notDotDot : name ≠ dotDot) (long : longestName < name.length) :
    ∃ error, walkNames files ending onward slash (name :: rest) here = .error error := by
  obtain ⟨mode, entry⟩ := passage_eq_enter.mp enter
  unfold walkNames
  simp only [entry, admits_of_privileged privileged, notDot, notDotDot, long, if_false, if_true, Bool.not_true]
  by_cases refused : rest = [] ∧ slash = true ∧ ending = .creation
  · exact ⟨.isDirectory, by simp [refused]⟩
  · exact ⟨.nameTooLong, by simp [refused]⟩

theorem walkNames_refused (plain : Plain name) (refused : slash = true ∧ ending = .creation) :
    walkNames files ending onward slash [name] here = .error .isDirectory := by
  obtain ⟨mode, entry⟩ := passage_eq_enter.mp enter
  unfold walkNames
  simp [entry, admits_of_privileged privileged, plain.1, plain.2.1, refused]

theorem walkNames_follow {body : Bytes} (plain : Plain name) (accepted : ¬ (slash = true ∧ ending = .creation))
    (follow : files.passage (name :: here) = .follow body) (follows : ending.follows slash = true) :
    walkNames files ending onward slash [name] here =
      onward (base body here) (Path.ofBytes body).names (slash || (Path.ofBytes body).slash) := by
  obtain ⟨mode, entry⟩ := passage_eq_enter.mp enter
  unfold walkNames
  simp [entry, admits_of_privileged privileged, plain.1, plain.2.1, accepted, Nat.not_lt.mpr plain.2.2,
    passage_eq_follow.mp follow, follows, base]

theorem walkNames_named (plain : Plain name) (accepted : ¬ (slash = true ∧ ending = .creation))
    (final : ending.follows slash = true → ∀ body, files.passage (name :: here) ≠ .follow body) :
    walkNames files ending onward slash [name] here = .ok (.named here name slash) := by
  obtain ⟨mode, entry⟩ := passage_eq_enter.mp enter
  unfold walkNames
  simp only [entry, admits_of_privileged privileged, plain.1, plain.2.1, accepted, Nat.not_lt.mpr plain.2.2,
    if_false, Bool.not_true, and_false]
  cases found : files.get? (name :: here) with
  | none => simp
  | some entry =>
    cases entry with
    | file mode content => simp
    | directory mode => simp
    | link body =>
      have stays : ¬ ending.follows slash = true := fun follows => final follows body (passage_eq_follow.mpr found)
      simp [stays]

theorem walkNames_through {body : Bytes} (plain : Plain name) (inner : rest ≠ [])
    (follow : files.passage (name :: here) = .follow body) :
    walkNames files ending onward slash (name :: rest) here =
      onward (base body here) ((Path.ofBytes body).names ++ rest) slash := by
  obtain ⟨mode, entry⟩ := passage_eq_enter.mp enter
  obtain ⟨next, later, rfl⟩ := List.exists_cons_of_ne_nil inner
  rw [walkNames.eq_def]
  simp [entry, admits_of_privileged privileged, plain.1, plain.2.1, Nat.not_lt.mpr plain.2.2,
    passage_eq_follow.mp follow, base]

theorem walkNames_down (plain : Plain name) (inner : rest ≠ []) (down : files.passage (name :: here) = .enter) :
    walkNames files ending onward slash (name :: rest) here =
      walkNames files ending onward slash rest (name :: here) := by
  obtain ⟨mode, entry⟩ := passage_eq_enter.mp enter
  obtain ⟨other, found⟩ := passage_eq_enter.mp down
  obtain ⟨next, later, rfl⟩ := List.exists_cons_of_ne_nil inner
  rw [walkNames.eq_def]
  simp [entry, admits_of_privileged privileged, plain.1, plain.2.1, Nat.not_lt.mpr plain.2.2, found]

theorem walkNames_blocked (plain : Plain name) (inner : rest ≠ [])
    (blocked : files.passage (name :: here) = .blocked) :
    ∃ error, walkNames files ending onward slash (name :: rest) here = .error error := by
  obtain ⟨mode, entry⟩ := passage_eq_enter.mp enter
  obtain ⟨next, later, rfl⟩ := List.exists_cons_of_ne_nil inner
  have shut : files.passage (name :: here) ≠ .enter := by simp [blocked]
  have behind := @walkNames_shut files ending onward slash (name :: here) next later shut
  rw [walkNames.eq_def]
  simp only [entry, admits_of_privileged privileged, plain.1, plain.2.1, Nat.not_lt.mpr plain.2.2]
  unfold passage at blocked
  cases found : files.get? (name :: here) with
  | none => exact ⟨.notFound, by simp⟩
  | some entry =>
    cases entry with
    | file mode content => exact ⟨.notDirectory, by simp [behind]⟩
    | directory mode => simp [found, Passage.ofEntry] at blocked
    | link body => simp [found, Passage.ofEntry] at blocked

end

section

variable {files : FileSystem} {ending : Ending} {onward : Onward} {links : Nat} {names : List Name} {here : Location}
  {slash : Bool} {spot : Spot} (privileged : files.privileged = true)

include privileged

/-- A walk that succeeds at a last name has arrived at that name, or behind the link that it holds. -/
theorem arrives_of_last {name : Name} (enter : files.passage here = .enter) (plain : Plain name)
    (behind : ∀ here names slash, onward here names slash = .ok spot →
      ∃ left, links = left + 1 ∧ Arrives files ending ⟨left, here, names⟩ slash spot)
    (walked : walkNames files ending onward slash [name] here = .ok spot) :
    Arrives files ending ⟨links, here, [name]⟩ slash spot := by
  by_cases refused : slash = true ∧ ending = .creation
  · cases (walkNames_refused privileged enter plain refused).symm.trans walked
  by_cases final : ending.follows slash = true → ∀ body, files.passage (name :: here) ≠ .follow body
  · rw [walkNames_named privileged enter plain refused final] at walked
    obtain rfl : Spot.named here name slash = spot := by simpa using walked
    exact .named enter plain final refused
  · obtain ⟨follows, linked⟩ := Classical.not_imp.mp final
    obtain ⟨body, notOther⟩ := Classical.not_forall.mp linked
    have follow := Classical.not_not.mp notOther
    rw [walkNames_follow privileged enter plain refused follow follows] at walked
    obtain ⟨left, rfl, arrives⟩ := behind _ _ _ walked
    exact .follow enter plain follow follows refused arrives

/-- A walk that succeeds has arrived. -/
theorem arrives_of_walkNames (behind : ∀ here names slash, onward here names slash = .ok spot →
      ∃ left, links = left + 1 ∧ Arrives files ending ⟨left, here, names⟩ slash spot)
    (walked : walkNames files ending onward slash names here = .ok spot) :
    Arrives files ending ⟨links, here, names⟩ slash spot := by
  induction names generalizing here with
  | nil =>
    obtain rfl : Spot.directory here = spot := by simpa [walkNames] using walked
    exact .ended
  | cons name rest ih =>
    by_cases enter : files.passage here = .enter
    case neg => simp [walkNames_shut enter] at walked
    by_cases isDot : name = dot
    · subst isDot
      rw [walkNames_dot privileged enter] at walked
      refine .pass (.stay enter) ?_ (ih walked)
      rintro name plain ⟨⟩
      exact not_plain_dot plain
    by_cases isDotDot : name = dotDot
    · subst isDotDot
      rw [walkNames_dotDot privileged enter] at walked
      refine .pass (.up enter) ?_ (ih walked)
      rintro name plain ⟨⟩
      exact not_plain_dotDot plain
    by_cases long : longestName < name.length
    · obtain ⟨error, failed⟩ := walkNames_long privileged enter isDot isDotDot long
      cases failed.symm.trans walked
    have plain : Plain name := ⟨isDot, isDotDot, Nat.le_of_not_lt long⟩
    by_cases last : rest = []
    · subst last
      exact arrives_of_last privileged enter plain behind walked
    · have inner : Walker.Inner ⟨links, here, name :: rest⟩ := fun _ _ same => last (List.cons.inj same).2
      cases offered : files.passage (name :: here) with
      | enter =>
        rw [walkNames_down privileged enter plain last offered] at walked
        exact .pass (.down enter plain offered) inner (ih walked)
      | follow body =>
        rw [walkNames_through privileged enter plain last offered] at walked
        obtain ⟨left, rfl, arrives⟩ := behind _ _ _ walked
        exact .pass (.through enter plain offered) inner arrives
      | blocked =>
        obtain ⟨error, failed⟩ := walkNames_blocked privileged enter plain last offered
        cases failed.symm.trans walked

/-- A walk that has arrived succeeds. -/
theorem walkNames_of_arrives (behind : ∀ here names slash left, links = left + 1 →
      Arrives files ending ⟨left, here, names⟩ slash spot → onward here names slash = .ok spot)
    (arrives : Arrives files ending ⟨links, here, names⟩ slash spot) :
    walkNames files ending onward slash names here = .ok spot := by
  induction names generalizing here with
  | nil =>
    cases arrives with
    | ended => rfl
    | pass step _ _ => cases step
  | cons name rest ih =>
    cases arrives with
    | pass step inner arrives =>
      cases step with
      | stay enter =>
        rw [walkNames_dot privileged enter]
        exact ih arrives
      | up enter =>
        rw [walkNames_dotDot privileged enter]
        exact ih arrives
      | down enter plain down =>
        have notLast : rest ≠ [] := fun last => inner name plain (congrArg (name :: ·) last)
        rw [walkNames_down privileged enter plain notLast down]
        exact ih arrives
      | through enter plain follow =>
        have notLast : rest ≠ [] := fun last => inner name plain (congrArg (name :: ·) last)
        rw [walkNames_through privileged enter plain notLast follow]
        exact behind _ _ _ _ rfl arrives
    | follow enter plain follow follows accepted arrives =>
      rw [walkNames_follow privileged enter plain accepted follow follows]
      exact behind _ _ _ _ rfl arrives
    | named enter plain final accepted => exact walkNames_named privileged enter plain accepted final

end

/-- The walk of a privileged process succeeds just where it arrives, and at the same spot. -/
theorem walk_eq_ok_iff {files : FileSystem} (privileged : files.privileged = true) {ending : Ending} {links : Nat}
    {here : Location} {names : List Name} {slash : Bool} {spot : Spot} :
    files.walk ending links here names slash = .ok spot ↔ Arrives files ending ⟨links, here, names⟩ slash spot := by
  induction links generalizing here names slash with
  | zero =>
    refine ⟨arrives_of_walkNames privileged ?_, walkNames_of_arrives privileged ?_⟩
    · rintro here names slash ⟨⟩
    · rintro here names slash left ⟨⟩
  | succ links ih =>
    refine ⟨arrives_of_walkNames privileged ?_, walkNames_of_arrives privileged ?_⟩
    · exact fun here names slash walked => ⟨links, rfl, ih.mp walked⟩
    · rintro here names slash left ⟨⟩ arrives
      exact ih.mpr arrives

/-! ### One arrival -/

/-- Two file systems that never lead on to different places: where they differ, one of them leads nowhere. -/
def Compatible (files other : FileSystem) : Prop :=
  ∀ location, files.passage location = other.passage location ∨ files.passage location = .blocked ∨
    other.passage location = .blocked

theorem compatible_refl (files : FileSystem) : Compatible files files := fun _ => .inl rfl

/-- Steps that both of two compatible file systems allow lead to the same place. -/
theorem Pass.lockstep {files other : FileSystem} (compatible : Compatible files other) {walker one two : Walker}
    (first : Pass files walker one) (second : Pass other walker two) : one = two := by
  cases first with
  | stay enter =>
    cases second with
    | stay _ => rfl
    | down _ plain _ => exact absurd plain not_plain_dot
    | through _ plain _ => exact absurd plain not_plain_dot
  | up enter =>
    cases second with
    | up _ => rfl
    | down _ plain _ => exact absurd plain not_plain_dotDot
    | through _ plain _ => exact absurd plain not_plain_dotDot
  | @down _ here name _ enter plain down =>
    cases second with
    | stay _ => exact absurd plain not_plain_dot
    | up _ => exact absurd plain not_plain_dotDot
    | down _ _ _ => rfl
    | through _ _ follow =>
      have differ := compatible (name :: here)
      simp [down, follow] at differ
  | @through _ here name _ body enter plain follow =>
    cases second with
    | stay _ => exact absurd plain not_plain_dot
    | up _ => exact absurd plain not_plain_dotDot
    | down _ _ down =>
      have differ := compatible (name :: here)
      simp [down, follow] at differ
    | @through _ _ _ _ same _ _ also =>
      have differ := compatible (name :: here)
      obtain rfl : body = same := by simpa [follow, also] using differ
      rfl

/-- A step is decided by where the walk is and the names ahead. -/
theorem Pass.unique {files : FileSystem} {walker one other : Walker} (first : Pass files walker one)
    (second : Pass files walker other) : one = other :=
  first.lockstep (compatible_refl files) second

theorem Arrives.unique {files : FileSystem} {ending : Ending} {walker : Walker} {slash : Bool} {one other : Spot}
    (first : Arrives files ending walker slash one) (second : Arrives files ending walker slash other) :
    one = other := by
  induction first with
  | ended =>
    cases second with
    | ended => rfl
    | pass step _ _ => cases step
  | pass step inner arrives ih =>
    cases second with
    | ended => cases step
    | pass same _ arrives =>
      obtain rfl := step.unique same
      exact ih arrives
    | follow _ plain _ _ _ _ => exact absurd rfl (inner _ plain)
    | named _ plain _ _ => exact absurd rfl (inner _ plain)
  | follow enter plain follow follows accepted arrives ih =>
    cases second with
    | pass _ inner _ => exact absurd rfl (inner _ plain)
    | follow _ _ same _ _ arrives =>
      cases follow.symm.trans same
      exact ih arrives
    | named _ _ final _ => exact absurd follow (final follows _)
  | named enter plain final accepted =>
    cases second with
    | pass _ inner _ => exact absurd rfl (inner _ plain)
    | follow _ _ follow follows _ _ => exact absurd follow (final follows _)
    | named _ _ _ _ => rfl

end FileSystem

end ActorSurface
