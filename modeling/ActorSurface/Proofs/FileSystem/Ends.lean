import ActorSurface.Proofs.FileSystem.Sight
import ActorSurface.Proofs.FileSystem.Siblings

/-!
Paths that end in a name of a directory (`EndsIn`), for any process. Such a path, and each path with more behind the
name, is resolved to the name just where the path and the name are short enough and the process may search the
directory (`EndsIn.resolve_append`, `EndsIn.resolved`), as long as no link is there.
-/

namespace ActorSurface

namespace FileSystem

/-- A name by which a path can end in an entry of a directory. -/
structure Ordinary (name : Name) : Prop where
  filled : name ≠ []
  unseparated : separator ∉ name
  accepted : 0 ∉ name
  notDot : name ≠ dot
  notDotDot : name ≠ dotDot

/-- A path ends in a name, and what is before the name leads to a directory, which is the working directory where
    nothing is before it. -/
inductive EndsIn (files : FileSystem) : Bytes → Location → Name → Prop
  | here {name : Name} {mode : Mode} : Ordinary name → files.get? files.workingDirectory = some (.directory mode) →
      EndsIn files name files.workingDirectory name
  | behind {front : Bytes} {directory : Location} {name : Name} {mode : Mode} : Ordinary name →
      files.lookUp .content (front ++ [separator]) = .ok (directory, .directory mode) →
      EndsIn files (front ++ separator :: name) directory name

namespace Path

theorem ofArgument_of_short {octets : Bytes} (accepted : 0 ∉ octets) (filled : octets ≠ [])
    (short : octets.length ≤ longestPath) : ofArgument octets = .ok (ofBytes octets) := by
  simp [ofArgument, accepted, filled, Nat.not_lt.mpr short]

theorem short_of_ofArgument {octets : Bytes} {parts : Path} (argument : ofArgument octets = .ok parts) :
    0 ∉ octets ∧ octets.length ≤ longestPath := by
  unfold ofArgument at argument
  split at argument
  next => cases argument
  next accepted =>
    split at argument
    next => cases argument
    split at argument
    next => cases argument
    next short => exact ⟨accepted, Nat.le_of_not_lt short⟩

/-- A separator ends a stretch. -/
theorem stretches_behind (front more : Bytes) :
    stretches (front ++ separator :: more) = stretches front ++ stretches more := by
  induction front with
  | nil => simp [stretches]
  | cons octet front ih =>
    rw [List.cons_append, stretches, stretches, ih]
    by_cases separates : octet = separator
    · rw [if_pos separates, if_pos separates]
      rfl
    · rw [if_neg separates, if_neg separates]
      obtain ⟨stretched, last, split, -⟩ := stretches_append front
      cases stretched with
      | nil =>
        rw [split]
        rfl
      | cons first stretched =>
        rw [split]
        rfl

theorem ofBytes_plain {name : Name} (filled : name ≠ []) (unseparated : separator ∉ name) :
    ofBytes name = ⟨false, [name], false⟩ := by
  have starts : name.head? ≠ some separator := fun same => unseparated (List.mem_of_head? same)
  have ends : name.getLast? ≠ some separator := fun same => unseparated (List.mem_of_getLast? same)
  simp [ofBytes, stretches_plain unseparated, filled, starts, ends]

/-- A name behind a separator is the last name. -/
theorem ofBytes_behind (front : Bytes) {name : Name} (filled : name ≠ []) (unseparated : separator ∉ name) :
    ofBytes (front ++ separator :: name) =
      ⟨(ofBytes (front ++ [separator])).absolute, (ofBytes (front ++ [separator])).names ++ [name], false⟩ := by
  have ends : name.getLast? ≠ some separator := fun same => unseparated (List.mem_of_getLast? same)
  have heads : (front ++ separator :: name).head? = (front ++ [separator]).head? := by
    cases front <;> rfl
  have lasts : (front ++ separator :: name).getLast? = name.getLast? := by
    obtain ⟨octet, rest, rfl⟩ := List.exists_cons_of_ne_nil filled
    rw [List.getLast?_append, List.getLast?_cons_cons]
    cases last : (octet :: rest).getLast? with
    | none => simp at last
    | some final => rfl
  simp [ofBytes, heads, lasts, ends, stretches_behind, stretches_plain unseparated, stretches, filled]

end Path

/-! ### Directories before a name -/

section

variable {files : FileSystem} {walker : Walker} {slash : Bool} {spot : Spot}

/-- A walk to content that arrives where a directory can be entered goes there step by step. -/
theorem Arrives.reach (arrives : Arrives files .content walker slash spot)
    (enter : files.passage spot.location = .enter) : ∃ left, Reach files walker ⟨left, spot.location, []⟩ := by
  induction arrives with
  | ended => exact ⟨_, .refl⟩
  | pass step _ _ ih =>
    obtain ⟨left, reach⟩ := ih enter
    exact ⟨left, .head step reach⟩
  | @follow links here name _ body _ enters plain follow _ _ _ ih =>
    obtain ⟨left, reach⟩ := ih enter
    have step : Pass files ⟨links + 1, here, [name]⟩ ⟨links, base body here, (Path.ofBytes body).names⟩ := by
      simpa using @Pass.through files links here name [] body enters plain follow
    exact ⟨left, .head step reach⟩
  | named enters plain _ _ => exact ⟨_, .single (.down enters plain enter)⟩

/-- Going step by step to a directory leads where the walk to content arrives. -/
theorem Arrives.location_eq (arrives : Arrives files .content walker slash spot) {left : Nat} {directory : Location}
    (reach : Reach files walker ⟨left, directory, []⟩) : spot.location = directory := by
  induction arrives with
  | ended =>
    cases reach_nil reach
    rfl
  | pass step inner _ ih =>
    rcases reach.cases_head with rfl | ⟨onward, same, reach⟩
    · cases step
    · obtain rfl := step.unique same
      exact ih reach
  | @follow links here name _ body _ enters plain follow _ _ _ ih =>
    have step : Pass files ⟨links + 1, here, [name]⟩ ⟨links, base body here, (Path.ofBytes body).names⟩ := by
      simpa using @Pass.through files links here name [] body enters plain follow
    rcases reach.cases_head with same | ⟨onward, same, reach⟩
    · cases same
    · obtain rfl := step.unique same
      exact ih reach
  | named enters plain final _ =>
    rcases reach.cases_head with same | ⟨onward, step, reach⟩
    · cases same
    · cases step with
      | stay _ => exact absurd plain not_plain_dot
      | up _ => exact absurd plain not_plain_dotDot
      | down _ _ _ =>
        cases reach_nil reach
        rfl
      | through _ _ follow => exact absurd follow (final rfl _)

/-- A last name that is no dot is found, or followed, only in a directory that can be entered. -/
theorem plain_of_arrives {ending : Ending} {left : Nat} {here : Location} {name : Name} (notDot : name ≠ dot)
    (notDotDot : name ≠ dotDot) (arrives : Arrives files ending ⟨left, here, [name]⟩ slash spot) :
    Plain name ∧ files.passage here = .enter := by
  cases arrives with
  | pass step inner _ =>
    cases step with
    | stay _ => exact absurd rfl notDot
    | up _ => exact absurd rfl notDotDot
    | down _ plain _ => exact absurd rfl (inner name plain)
    | through _ plain _ => exact absurd rfl (inner name plain)
  | follow enter plain _ _ _ _ => exact ⟨plain, enter⟩
  | named enter plain _ _ => exact ⟨plain, enter⟩

end

namespace EndsIn

variable {files : FileSystem} {path : Bytes} {directory : Location} {name : Name}

theorem ordinary (ends : EndsIn files path directory name) : Ordinary name := by
  cases ends with
  | here ordinary _ => exact ordinary
  | behind ordinary _ => exact ordinary

theorem accepted (ends : EndsIn files path directory name) : 0 ∉ path ∧ path ≠ [] := by
  cases ends with
  | here ordinary _ => exact ⟨ordinary.accepted, ordinary.filled⟩
  | @behind front _ _ _ ordinary found =>
    obtain ⟨spot, resolved, -⟩ := lookUp_eq_ok_iff_resolve.mp found
    obtain ⟨parts, argument, -⟩ := resolve_eq_ok_iff_sight.mp resolved
    obtain ⟨accepted, -⟩ := Path.short_of_ofArgument argument
    have plain : (0 : UInt8) ≠ separator := by decide
    simp only [List.mem_append, not_or] at accepted
    simp [accepted.1, plain, ordinary.accepted]

theorem exists_mode (ends : EndsIn files path directory name) : ∃ mode, files.get? directory = some (.directory mode) := by
  cases ends with
  | @here _ mode _ stands => exact ⟨mode, stands⟩
  | @behind _ _ _ mode _ found =>
    obtain ⟨-, -, -, stands, -⟩ := lookUp_eq_ok_iff_resolve.mp found
    exact ⟨mode, stands⟩

theorem mayChange (ends : EndsIn files path directory name) (privileged : files.privileged = true) :
    files.mayChange directory = true :=
  mayChange_of_enter privileged (passage_eq_enter.mpr ends.exists_mode)

/-- The names before the last one lead to the directory, and to no other. -/
theorem exists_names (ends : EndsIn files path directory name) :
    ∃ absolute names, (∀ more, separator ∉ more →
        Path.ofBytes (path ++ more) = ⟨absolute, names ++ [name ++ more], false⟩) ∧
      (∀ left there, Descends files.sight absolute names left there → there = directory) ∧
      (files.sight.passage directory = .enter → ∃ left, Descends files.sight absolute names left directory) := by
  cases ends with
  | here ordinary _ =>
    refine ⟨false, [], fun more unseparated => ?_, fun left there descends => ?_, fun _ => ⟨linkLimit, .refl⟩⟩
    · refine Path.ofBytes_plain ?_ ?_
      · simp [ordinary.filled]
      · simp [ordinary.unseparated, unseparated]
    · cases reach_nil descends
      rfl
  | @behind front _ _ mode ordinary found =>
    obtain ⟨spot, resolved, rfl, -, -⟩ := lookUp_eq_ok_iff_resolve.mp found
    obtain ⟨parts, argument, arrives⟩ := resolve_eq_ok_iff_sight.mp resolved
    obtain ⟨-, rfl⟩ := Path.ofArgument_eq_ok argument
    refine ⟨_, _, fun more unseparated => ?_, fun left there descends => (arrives.location_eq descends).symm,
      arrives.reach⟩
    rw [List.append_assoc, List.cons_append]
    refine Path.ofBytes_behind front ?_ ?_
    · simp [ordinary.filled]
    · simp [ordinary.unseparated, unseparated]

variable {more : Bytes} (unseparated : separator ∉ more) (acceptedMore : 0 ∉ more)

include unseparated acceptedMore

/-- A path with more behind its name is resolved to the longer name, if both are short enough, the process may search
    the directory, and the name holds no link. -/
theorem resolve_append (ends : EndsIn files path directory name) (plain : Plain (name ++ more))
    (short : (path ++ more).length ≤ longestPath) (enter : files.sight.passage directory = .enter)
    (unlinked : ∀ body, files.get? ((name ++ more) :: directory) ≠ some (.link body)) (ending : Ending) :
    files.resolve ending (path ++ more) = .ok (.named directory (name ++ more) false) := by
  obtain ⟨absolute, names, split, -, reaches⟩ := ends.exists_names
  obtain ⟨accepted, filled⟩ := ends.accepted
  obtain ⟨left, descends⟩ := reaches enter
  have argument : Path.ofArgument (path ++ more) = .ok ⟨absolute, names ++ [name ++ more], false⟩ := by
    rw [Path.ofArgument_of_short (by simp [accepted, acceptedMore]) (by simp [filled]) short, split more unseparated]
  refine resolve_eq_ok_iff_sight.mpr ((leads_iff_descends argument).mpr ⟨left, directory, descends, ?_⟩)
  exact .named enter plain (fun _ body follow => unlinked body (passage_sight_eq_follow.mp follow)) nofun

omit acceptedMore in
/-- What a path with more behind its name is resolved to, if to anything, it is for these reasons. -/
theorem resolved (ends : EndsIn files path directory name) (notDot : name ++ more ≠ dot)
    (notDotDot : name ++ more ≠ dotDot) {ending : Ending} {spot : Spot}
    (resolves : files.resolve ending (path ++ more) = .ok spot) :
    Plain (name ++ more) ∧ (path ++ more).length ≤ longestPath ∧ files.sight.passage directory = .enter := by
  obtain ⟨absolute, names, split, only, -⟩ := ends.exists_names
  obtain ⟨parts, argument, -⟩ := resolve_eq_ok_iff_sight.mp resolves
  obtain ⟨-, short⟩ := Path.short_of_ofArgument argument
  obtain ⟨-, rfl⟩ := Path.ofArgument_eq_ok argument
  rw [split more unseparated] at argument
  obtain ⟨left, there, descends, arrives⟩ := (leads_iff_descends argument).mp (resolve_eq_ok_iff_sight.mp resolves)
  obtain ⟨plain, enter⟩ := plain_of_arrives notDot notDotDot arrives
  rw [only left there descends] at enter
  exact ⟨plain, short, enter⟩

end EndsIn

end FileSystem

end ActorSurface
