import ActorSurface.Proofs.FileSystem.Passage

/-!
How a walk depends on the file system. The names before the last one lead to a directory, whatever the call
makes of the last name (`arrives_append_iff`); walks to a directory in two compatible file systems reach the
same one (`Reach.lockstep`); and a walk that arrives does so in every file system that leads on where it
went (`Arrives.transfer`). A walk that arrives does not come back to the link that it started from
(`not_arrives_of_loop`).
-/

namespace ActorSurface

namespace FileSystem

open Relation (ReflTransGen)

/-- Some steps of a walk. -/
abbrev Reach (files : FileSystem) : Walker → Walker → Prop :=
  ReflTransGen (Pass files)

/-! ### Directories -/

/-- Names behind those ahead do not matter to a step. -/
theorem Pass.append {files : FileSystem} {walker onward : Walker} (step : Pass files walker onward)
    (more : List Name) :
    Pass files ⟨walker.links, walker.here, walker.names ++ more⟩ ⟨onward.links, onward.here, onward.names ++ more⟩ := by
  cases step with
  | stay enter => exact .stay enter
  | up enter => exact .up enter
  | down enter plain down => exact .down enter plain down
  | through enter plain follow =>
    rw [List.append_assoc]
    exact .through enter plain follow

/-- A step with a name behind the next one is a step without it. -/
theorem Pass.of_append {files : FileSystem} {links : Nat} {here : Location} {name : Name} {rest more : List Name}
    {onward : Walker} (step : Pass files ⟨links, here, name :: (rest ++ more)⟩ onward) :
    ∃ names, onward.names = names ++ more ∧ Pass files ⟨links, here, name :: rest⟩ ⟨onward.links, onward.here, names⟩ := by
  cases step with
  | stay enter => exact ⟨rest, rfl, .stay enter⟩
  | up enter => exact ⟨rest, rfl, .up enter⟩
  | down enter plain down => exact ⟨rest, rfl, .down enter plain down⟩
  | through enter plain follow => exact ⟨_, (List.append_assoc _ _ _).symm, .through enter plain follow⟩

theorem reach_nil {files : FileSystem} {links : Nat} {here : Location} {walker : Walker}
    (reach : Reach files ⟨links, here, []⟩ walker) : walker = ⟨links, here, []⟩ := by
  cases reach.cases_head with
  | inl same => exact same.symm
  | inr moved =>
    obtain ⟨onward, step, -⟩ := moved
    cases step

/-- A walk arrives through the directory to which the names before the last one lead. -/
theorem arrives_append_iff {files : FileSystem} {ending : Ending} {links : Nat} {here : Location} {names : List Name}
    {name : Name} {slash : Bool} {spot : Spot} :
    Arrives files ending ⟨links, here, names ++ [name]⟩ slash spot ↔
      ∃ left directory, Reach files ⟨links, here, names⟩ ⟨left, directory, []⟩ ∧
        Arrives files ending ⟨left, directory, [name]⟩ slash spot := by
  constructor
  · intro arrives
    generalize start : (⟨links, here, names ++ [name]⟩ : Walker) = walker at arrives
    induction arrives generalizing links here names with
    | ended => simp at start
    | @pass walker onward slash spot step inner arrives ih =>
      subst start
      cases names with
      | nil => exact ⟨links, here, .refl, .pass step inner arrives⟩
      | cons first names =>
        obtain ⟨others, split, shorter⟩ := Pass.of_append step
        obtain ⟨left, directory, reach, final⟩ := ih (by rw [← split])
        exact ⟨left, directory, .head shorter reach, final⟩
    | @follow links here name slash body spot enter plain follow follows accepted arrives _ =>
      cases names with
      | nil =>
        cases start
        exact ⟨_, _, .refl, .follow enter plain follow follows accepted arrives⟩
      | cons first names => simp at start
    | named enter plain final accepted =>
      cases names with
      | nil =>
        cases start
        exact ⟨_, _, .refl, .named enter plain final accepted⟩
      | cons first names => simp at start
  · rintro ⟨left, directory, reach, arrives⟩
    generalize start : (⟨links, here, names⟩ : Walker) = walker at reach
    induction reach using ReflTransGen.head_induction_on generalizing links here names with
    | refl =>
      cases start
      exact arrives
    | @head walker onward step reach ih =>
      subst start
      refine .pass (step.append [name]) ?_ (ih rfl)
      intro only plain single
      have empty : names = [] := by simpa using congrArg List.length single
      subst empty
      cases step

/-- Walks to a directory in two compatible file systems reach the same one, by as many links. -/
theorem Reach.lockstep {files other : FileSystem} (compatible : Compatible files other) {walker : Walker}
    {left right : Nat} {one two : Location} (first : Reach files walker ⟨left, one, []⟩)
    (second : Reach other walker ⟨right, two, []⟩) : left = right ∧ one = two := by
  induction first using ReflTransGen.head_induction_on with
  | refl =>
    cases reach_nil second
    exact ⟨rfl, rfl⟩
  | head step reach ih =>
    rcases second.cases_head with rfl | ⟨onward, same, second⟩
    · cases step
    · obtain rfl := step.lockstep compatible same
      exact ih second

/-- What leads on in one file system does so in the other. -/
def Opens (files other : FileSystem) : Prop :=
  ∀ location, files.passage location ≠ .blocked → other.passage location = files.passage location

theorem Opens.pass {files other : FileSystem} (opens : Opens files other) {walker onward : Walker}
    (step : Pass files walker onward) : Pass other walker onward := by
  cases step with
  | stay enter => exact .stay ((opens _ (by simp [enter])).trans enter)
  | up enter => exact .up ((opens _ (by simp [enter])).trans enter)
  | down enter plain down =>
    exact .down ((opens _ (by simp [enter])).trans enter) plain ((opens _ (by simp [down])).trans down)
  | through enter plain follow =>
    exact .through ((opens _ (by simp [enter])).trans enter) plain ((opens _ (by simp [follow])).trans follow)

theorem Opens.reach {files other : FileSystem} (opens : Opens files other) {walker onward : Walker}
    (reach : Reach files walker onward) : Reach other walker onward :=
  ReflTransGen.mono (fun _ _ => opens.pass) _ _ reach

/-! ### Arrivals elsewhere -/

/-- A walk that arrives does so in another file system that leads on likewise, but for locations that the walk
    avoids, and is like the first where the walk lands. -/
theorem Arrives.transfer {files other : FileSystem} {ending : Ending} {walker : Walker} {slash : Bool} {spot : Spot}
    (avoid : Location → Prop) (arrives : Arrives files ending walker slash spot)
    (shut : ∀ location, avoid location → files.passage location ≠ .enter)
    (same : ∀ location, ¬ avoid location → files.passage location ≠ .blocked →
      other.passage location = files.passage location)
    (avoids : ∀ onward name rest slash, Reach files walker onward → onward.names = name :: rest →
      Arrives files ending onward slash spot → ¬ avoid (name :: onward.here))
    (lands : ∀ directory name slash, spot = .named directory name slash →
      other.passage (name :: directory) = files.passage (name :: directory)) :
    Arrives other ending walker slash spot := by
  have enters : ∀ location, files.passage location = .enter → other.passage location = .enter := by
    intro location enter
    exact (same location (fun avoided => shut location avoided enter) (by simp [enter])).trans enter
  induction arrives with
  | ended => exact .ended
  | @pass walker onward slash spot step inner arrives ih =>
    have later := ih (fun ahead name rest slash reach => avoids ahead name rest slash (.head step reach)) lands
    refine .pass ?_ inner later
    have whole := Arrives.pass step inner arrives
    cases step with
    | stay enter => exact .stay (enters _ enter)
    | up enter => exact .up (enters _ enter)
    | down enter plain down => exact .down (enters _ enter) plain (enters _ down)
    | through enter plain follow =>
      have avoided := avoids _ _ _ _ .refl rfl whole
      exact .through (enters _ enter) plain ((same _ avoided (by simp [follow])).trans follow)
  | @follow links here name slash body spot enter plain follow follows accepted arrives ih =>
    have avoided := avoids _ _ _ _ .refl rfl (.follow enter plain follow follows accepted arrives)
    have step : Pass files ⟨links + 1, here, [name]⟩ ⟨links, base body here, (Path.ofBytes body).names⟩ := by
      simpa using @Pass.through files links here name [] body enter plain follow
    refine .follow (enters _ enter) plain ((same _ avoided (by simp [follow])).trans follow) follows accepted ?_
    exact ih (fun ahead name rest slash reach => avoids ahead name rest slash (.head step reach)) lands
  | @named links here name slash enter plain final accepted =>
    refine .named (enters _ enter) plain (fun follows body follow => ?_) accepted
    exact final follows body ((lands _ _ _ rfl).symm.trans follow)

/-- What a walk to a new file arrives at, a walk to content arrives at. -/
theorem Arrives.content {files : FileSystem} {walker : Walker} {slash : Bool} {spot : Spot}
    (arrives : Arrives files .creation walker slash spot) : Arrives files .content walker slash spot := by
  induction arrives with
  | ended => exact .ended
  | pass step inner _ ih => exact .pass step inner ih
  | follow enter plain follow _ _ _ ih => exact .follow enter plain follow rfl (by simp) ih
  | named enter plain final _ => exact .named enter plain (fun _ => final rfl) (by simp)

/-! ### Loops -/

section

variable {files : FileSystem} {slash : Bool} {spot : Spot} {more : List Name}

theorem Arrives.behind {ending : Ending} {walker onward : Walker} (arrives : Arrives files ending walker slash spot)
    (step : Pass files walker onward) (inner : walker.Inner) : Arrives files ending onward slash spot := by
  cases arrives with
  | ended => cases step
  | pass same _ arrives =>
    obtain rfl := step.unique same
    exact arrives
  | follow _ plain _ _ _ _ => exact absurd rfl (inner _ plain)
  | named _ plain _ _ => exact absurd rfl (inner _ plain)

/-- A walk to content goes on behind a link, with fewer links to follow. -/
theorem arrives_through {links : Nat} {here : Location} {name : Name} {body : Bytes} (plain : Plain name)
    (follow : files.passage (name :: here) = .follow body)
    (arrives : Arrives files .content ⟨links, here, name :: more⟩ slash spot) :
    ∃ left < links, ∃ slash, Arrives files .content ⟨left, base body here, (Path.ofBytes body).names ++ more⟩
      slash spot := by
  cases arrives with
  | pass step _ arrives =>
    cases step with
    | stay _ => exact absurd plain not_plain_dot
    | up _ => exact absurd plain not_plain_dotDot
    | down _ _ down => cases down.symm.trans follow
    | through _ _ same =>
      cases same.symm.trans follow
      exact ⟨_, Nat.lt_succ_self _, _, arrives⟩
  | follow _ _ same _ _ arrives =>
    cases same.symm.trans follow
    exact ⟨_, Nat.lt_succ_self _, _, by simpa using arrives⟩
  | named _ _ final _ => exact absurd follow (final rfl body)

/-- A walk to content along more names takes the steps that lead along the first of them. -/
theorem arrives_step {walker onward : Walker} {links : Nat} (step : Pass files walker onward)
    (ahead : onward.names ≠ []) (arrives : Arrives files .content ⟨links, walker.here, walker.names ++ more⟩ slash spot) :
    ∃ left ≤ links, ∃ slash, Arrives files .content ⟨left, onward.here, onward.names ++ more⟩ slash spot := by
  cases step with
  | stay enter =>
    refine ⟨links, Nat.le_refl _, slash, arrives.behind (.stay enter) ?_⟩
    intro name plain single
    exact not_plain_dot ((List.cons.inj single).1 ▸ plain)
  | up enter =>
    refine ⟨links, Nat.le_refl _, slash, arrives.behind (.up enter) ?_⟩
    intro name plain single
    exact not_plain_dotDot ((List.cons.inj single).1 ▸ plain)
  | down enter plain down =>
    refine ⟨links, Nat.le_refl _, slash, arrives.behind (.down enter plain down) ?_⟩
    intro only _ single
    exact ahead (List.append_eq_nil_iff.mp (List.cons.inj single).2).1
  | through enter plain follow =>
    obtain ⟨left, less, slash, arrives⟩ := arrives_through plain follow arrives
    exact ⟨left, Nat.le_of_lt less, slash, by simpa using arrives⟩

theorem arrives_along {walker onward : Walker} {links : Nat} (reach : Reach files walker onward)
    (ahead : onward.names ≠ []) (arrives : Arrives files .content ⟨links, walker.here, walker.names ++ more⟩ slash spot) :
    ∃ left ≤ links, ∃ slash, Arrives files .content ⟨left, onward.here, onward.names ++ more⟩ slash spot := by
  induction reach using ReflTransGen.head_induction_on generalizing links slash with
  | refl => exact ⟨links, Nat.le_refl _, slash, arrives⟩
  | @head walker middle step reach ih =>
    have going : middle.names ≠ [] := by
      intro empty
      obtain ⟨left, here, names⟩ := middle
      obtain rfl : names = [] := empty
      rw [reach_nil reach] at ahead
      exact ahead rfl
    obtain ⟨left, le, slash, arrives⟩ := arrives_step step going arrives
    obtain ⟨final, finalLe, slash, arrives⟩ := ih arrives
    exact ⟨final, Nat.le_trans finalLe le, slash, arrives⟩

/-- A walk along the body of a link that leads back to the link does not arrive. -/
theorem not_arrives_of_loop {links left : Nat} {here : Location} {name : Name} {body : Bytes} {rest : List Name}
    (plain : Plain name) (follow : files.passage (name :: here) = .follow body)
    (reach : Reach files ⟨links, base body here, (Path.ofBytes body).names⟩ ⟨left, here, name :: rest⟩)
    (budget : Nat) :
    ¬ Arrives files .content ⟨budget, base body here, (Path.ofBytes body).names ++ more⟩ slash spot := by
  -- Each time around takes a link, and there are only so many.
  induction budget using Nat.strongRecOn generalizing more slash with
  | ind budget ih =>
    intro arrives
    obtain ⟨before, le, slash, arrives⟩ := arrives_along reach (by simp) arrives
    obtain ⟨again, less, slash, arrives⟩ := arrives_through plain follow arrives
    exact ih again (Nat.lt_of_lt_of_le less le) arrives

end

end FileSystem

end ActorSurface
