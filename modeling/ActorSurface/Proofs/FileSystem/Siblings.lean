import ActorSurface.Proofs.FileSystem.Answers
import ActorSurface.Proofs.FileSystem.Paths

/-!
Two paths of which one is the other with bytes behind it, such as the name of a file and its temporary name.
Where the path of a name leads to that name, both lead through the same directories to names in one of them
(`exists_siblings`).
-/

namespace ActorSurface

namespace FileSystem

/-- Names that lead to a directory, from the root or the working directory, and how many links are left to
    follow there. -/
def Descends (files : FileSystem) (absolute : Bool) (names : List Name) (left : Nat) (directory : Location) : Prop :=
  Reach files ⟨linkLimit, if absolute then [] else files.workingDirectory, names⟩ ⟨left, directory, []⟩

/-- A path leads where the names before its last one and then the last one lead. -/
theorem leads_iff_descends {files : FileSystem} {ending : Ending} {path : Bytes} {absolute slash : Bool}
    {names : List Name} {name : Name} {spot : Spot}
    (argument : Path.ofArgument path = .ok ⟨absolute, names ++ [name], slash⟩) :
    Leads files ending path spot ↔ ∃ left directory, Descends files absolute names left directory ∧
      Arrives files ending ⟨left, directory, [name]⟩ slash spot := by
  unfold Descends
  rw [← arrives_append_iff]
  constructor
  · rintro ⟨parts, accepted, arrives⟩
    obtain rfl : ⟨absolute, names ++ [name], slash⟩ = parts := Except.ok.inj (argument.symm.trans accepted)
    exact arrives
  · exact fun arrives => ⟨_, argument, arrives⟩

/-- Compatible file systems descend to one directory. -/
theorem Descends.lockstep {files other : FileSystem} (compatible : Compatible files other)
    (sameStart : other.workingDirectory = files.workingDirectory) {absolute : Bool} {names : List Name}
    {left right : Nat} {one two : Location} (first : Descends files absolute names left one)
    (second : Descends other absolute names right two) : left = right ∧ one = two := by
  unfold Descends at first second
  rw [sameStart] at second
  exact Reach.lockstep compatible first second

theorem Descends.of_opens {files other : FileSystem} (opens : Opens files other)
    (sameStart : other.workingDirectory = files.workingDirectory) {absolute : Bool} {names : List Name} {left : Nat}
    {directory : Location} (descends : Descends files absolute names left directory) :
    Descends other absolute names left directory := by
  unfold Descends at descends ⊢
  rw [sameStart]
  exact opens.reach descends

/-- The last name is where a walk arrives, or a link that it follows. -/
theorem arrives_last {files : FileSystem} {ending : Ending} {left : Nat} {directory : Location} {name : Name}
    {slash : Bool} {spot : Spot} (plain : Plain name)
    (arrives : Arrives files ending ⟨left, directory, [name]⟩ slash spot) :
    (spot = .named directory name slash ∧
        (ending.follows slash = true → ∀ body, files.passage (name :: directory) ≠ .follow body)) ∨
      ∃ body less, left = less + 1 ∧ files.passage (name :: directory) = .follow body ∧ ending.follows slash = true ∧
        Arrives files ending ⟨less, base body directory, (Path.ofBytes body).names⟩
          (slash || (Path.ofBytes body).slash) spot := by
  cases arrives with
  | pass _ inner _ => exact absurd rfl (inner name plain)
  | follow _ _ follow follows _ arrives => exact .inr ⟨_, _, rfl, follow, follows, arrives⟩
  | named _ _ final _ => exact .inl ⟨rfl, final⟩

/-- A last name by which a walk arrives at a name leads down. -/
theorem arrives_plain {files : FileSystem} {ending : Ending} {left : Nat} {directory holder : Location}
    {name final : Name} {slash ends : Bool}
    (arrives : Arrives files ending ⟨left, directory, [name]⟩ slash (.named holder final ends)) : Plain name := by
  cases arrives with
  | pass step inner arrives =>
    cases step with
    | stay _ =>
      cases arrives with
      | pass step _ _ => cases step
    | up _ =>
      cases arrives with
      | pass step _ _ => cases step
    | down _ plain _ => exact plain
    | through _ plain _ => exact plain
  | follow _ plain _ _ _ _ => exact plain
  | named _ plain _ _ => exact plain

/-- Where links are not followed, the last name leads to itself, in the directory before it. -/
theorem arrives_entry {files : FileSystem} {left : Nat} {directory holder : Location} {name final : Name}
    {slash ends : Bool} (arrives : Arrives files .entry ⟨left, directory, [name]⟩ slash (.named holder final ends)) :
    holder = directory ∧ final = name := by
  rcases arrives_last (arrives_plain arrives) arrives with ⟨same, -⟩ | ⟨_, _, _, _, follows, -⟩
  · cases same
    exact ⟨rfl, rfl⟩
  · cases follows

/-- Nothing is found at a name that is free, links not followed. -/
theorem isPresent_of_free {files : FileSystem} (privileged : files.privileged = true) {path : Bytes} {absolute : Bool}
    {names : List Name} {name : Name} (argument : Path.ofArgument path = .ok ⟨absolute, names ++ [name], false⟩)
    (plain : Plain name) {left : Nat} {directory : Location} (descends : Descends files absolute names left directory)
    (free : files.get? (name :: directory) = none) : files.isPresent path = false := by
  cases found : files.lookUp .status path with
  | error fault => simp [isPresent, found]
  | ok answer =>
    obtain ⟨spot, leads, here, stands, -⟩ := (lookUp_eq_ok_iff privileged).mp found
    obtain ⟨_, _, descendsToo, arrives⟩ := (leads_iff_descends argument).mp leads
    obtain ⟨rfl, rfl⟩ := descends.lockstep (compatible_refl files) rfl descendsToo
    rcases arrives_last plain arrives with ⟨rfl, -⟩ | ⟨_, _, _, _, follows, -⟩
    · cases free.symm.trans (here ▸ stands)
    · cases follows

/-- A path, and the path with more behind its last name. -/
structure Siblings (path more : Bytes) (absolute : Bool) (names : List Name) (name : Name) : Prop where
  argument : Path.ofArgument path = .ok ⟨absolute, names ++ [name], false⟩
  extended : Path.ofArgument (path ++ more) = .ok ⟨absolute, names ++ [name ++ more], false⟩
  plain : Plain name
  plainExtended : Plain (name ++ more)

/-- A path to a name and one with more behind it lead through one directory, whatever becomes of the last name
    of the other. -/
theorem exists_siblings {files : FileSystem} {path more : Bytes} (unseparated : separator ∉ more)
    {ending : Ending} {directory holder : Location} {name other : Name} {slash : Bool}
    (leads : Leads files .entry path (.named directory name false))
    (leadsOther : Leads files ending (path ++ more) (.named holder other slash)) :
    ∃ absolute names left, Siblings path more absolute names name ∧ Descends files absolute names left directory ∧
      Arrives files ending ⟨left, directory, [name ++ more]⟩ false (.named holder other slash) := by
  obtain ⟨parts, argument, arrives⟩ := leads
  obtain ⟨filled, rfl⟩ := Path.ofArgument_eq_ok argument
  obtain ⟨names, last, split, extend⟩ := Path.ofBytes_append filled arrives.slash
  rw [split] at argument
  obtain ⟨others, argumentOther, arrivesOther⟩ := leadsOther
  obtain ⟨-, rfl⟩ := Path.ofArgument_eq_ok argumentOther
  rw [extend more unseparated] at argumentOther
  obtain ⟨left, here, descends, lastArrives⟩ := (leads_iff_descends argument).mp ⟨_, argument, by rwa [split] at arrives⟩
  obtain ⟨right, there, descendsOther, lastOther⟩ :=
    (leads_iff_descends argumentOther).mp ⟨_, argumentOther, by rwa [extend more unseparated] at arrivesOther⟩
  obtain ⟨rfl, rfl⟩ := arrives_entry lastArrives
  obtain ⟨rfl, rfl⟩ := descends.lockstep (compatible_refl files) rfl descendsOther
  exact ⟨_, names, left, ⟨argument, argumentOther, arrives_plain lastArrives, arrives_plain lastOther⟩, descends,
    lastOther⟩

end FileSystem

end ActorSurface
