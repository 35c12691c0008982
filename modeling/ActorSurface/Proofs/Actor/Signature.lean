import ActorSurface.Actor.Header
import Mathlib.Data.List.Infix

/-!
Which headers declare an actor, and under which name. A header returns a future or void just where that is what stands
behind its template clause and its modifiers (`returnsFutureOrVoid_iff`), and it declares a name just where this is the
last before the first parenthesis outside of angle brackets (`name?_eq_some_iff`). The one question closes the brackets
of the template clause and leaves, the other counts brackets throughout and passes over those too many; on the brackets
of a clause both agree (`header_recognised`).
-/

namespace ActorSurface

namespace Actor

open Token (Kind)

namespace Header

/-- The angle brackets among some kinds close `depth` brackets that are open before them, and each other: nowhere have
    more been closed than opened, and at the end all are closed. -/
structure Closes (depth : Nat) (kinds : Header) : Prop where
  nowhere : ∀ front, front <+: kinds → front.count .greater ≤ depth + front.count .less
  total : kinds.count .greater = depth + kinds.count .less

/-- The angle brackets among some kinds are nested. -/
abbrev Nested (kinds : Header) : Prop :=
  Closes 0 kinds

instance (depth : Nat) (kinds : Header) : Decidable (Closes depth kinds) :=
  decidable_of_iff ((∀ front ∈ kinds.inits, front.count .greater ≤ depth + front.count .less) ∧
      kinds.count .greater = depth + kinds.count .less) (by
    simp only [List.mem_inits]
    exact ⟨fun both => ⟨both.1, both.2⟩, fun closes => ⟨closes.nowhere, closes.total⟩⟩)

/-- What can stand in front of the modifiers: nothing, or a template clause. -/
inductive Template : Header → Prop
  | absent : Template []
  | clause {inner : Header} : Nested inner → Template (.template :: .less :: inner ++ [.greater])

/-- What an actor returns. -/
inductive Returns : Header → Prop
  | void : Returns [.void]
  | future {inner : Header} : Nested inner → Returns (.future :: .less :: inner ++ [.greater])

/-- The kinds that can stand before what an actor returns. -/
def modifiers : Header :=
  [.static, .uncancellable, .identifier "inline"]

/-- The angle brackets that are open behind a kind. -/
def anglesBehind (angles : Nat) : Kind → Nat
  | .less => angles + 1
  | .greater => angles - 1
  | _ => angles

/-- The angle brackets that are open behind some kinds, where `angles` are open before them. One that closes nothing is
    passed over. -/
def openAngles (angles : Nat) (kinds : Header) : Nat :=
  kinds.foldl anglesBehind angles

/-- Each parenthesis among some kinds opens within angle brackets, of which `angles` are open before them. -/
def Sheltered (angles : Nat) (kinds : Header) : Prop :=
  ∀ front behind, kinds = front ++ .openParen :: behind → openAngles angles front ≠ 0

/-- Some kinds leave no angle bracket open, and open no parenthesis outside of angle brackets. -/
structure Aside (kinds : Header) : Prop where
  closed : openAngles 0 kinds = 0
  sheltered : Sheltered 0 kinds

/-! ### Brackets -/

section

variable {depth angles : Nat} {kind : Kind} {kinds rest : Header}

/-- Behind a kind that leaves `behind` brackets open of `depth`, the others have these to close. -/
theorem closes_cons_iff {behind : Nat}
    (shift : ∀ front : Header, depth + (kind :: front).count .less + front.count .greater =
      behind + front.count .less + (kind :: front).count .greater) :
    Closes depth (kind :: kinds) ↔ Closes behind kinds := by
  constructor
  · rintro ⟨nowhere, total⟩
    refine ⟨fun front early => ?_, ?_⟩
    · have bound := nowhere (kind :: front) (List.cons_prefix_cons.mpr ⟨rfl, early⟩)
      have same := shift front
      omega
    · have same := shift kinds
      omega
  · rintro ⟨nowhere, total⟩
    refine ⟨fun front early => ?_, ?_⟩
    · rcases List.prefix_cons_iff.mp early with rfl | ⟨others, rfl, inner⟩
      · simp
      · have bound := nowhere others inner
        have same := shift others
        omega
    · have same := shift kinds
      omega

theorem closes_cons_less : Closes depth (.less :: kinds) ↔ Closes (depth + 1) kinds := by
  refine closes_cons_iff fun front => ?_
  simp
  omega

theorem closes_cons_greater : Closes (depth + 1) (.greater :: kinds) ↔ Closes depth kinds := by
  refine closes_cons_iff fun front => ?_
  simp
  omega

theorem closes_cons_other (notLess : kind ≠ .less) (notGreater : kind ≠ .greater) :
    Closes depth (kind :: kinds) ↔ Closes depth kinds := by
  refine closes_cons_iff fun front => ?_
  simp [notLess, notGreater]

theorem not_nested_cons_greater : ¬ Nested (.greater :: kinds) := by
  rintro ⟨nowhere, -⟩
  have bound := nowhere [.greater] (List.cons_prefix_cons.mpr ⟨rfl, List.nil_prefix⟩)
  simp at bound

theorem not_closes_nil : ¬ Closes (depth + 1) [] := by
  rintro ⟨-, total⟩
  simp at total

theorem nested_nil : Nested [] :=
  ⟨fun front early => by simp [List.prefix_nil.mp early], rfl⟩

/-- A clause is left by the bracket that closes it. -/
theorem behindClause_of_closes (closes : Closes depth kinds) :
    behindClause depth (kinds ++ .greater :: rest) = rest := by
  induction kinds generalizing depth with
  | nil =>
    cases depth with
    | zero => simp [behindClause]
    | succ depth => exact absurd closes not_closes_nil
  | cons kind kinds ih =>
    cases kind with
    | less => simpa [behindClause] using ih (closes_cons_less.mp closes)
    | greater =>
      cases depth with
      | zero => exact absurd closes not_nested_cons_greater
      | succ depth => simpa [behindClause] using ih (closes_cons_greater.mp closes)
    | _ => simpa [behindClause] using ih ((closes_cons_other (by simp) (by simp)).mp closes)

/-- What stands behind a clause stands behind the bracket that closes it. -/
theorem exists_closes (kinds : Header) (behind : behindClause depth kinds ≠ []) :
    ∃ inner, Closes depth inner ∧ kinds = inner ++ .greater :: behindClause depth kinds := by
  fun_induction behindClause depth kinds with
  | case1 depth => exact absurd rfl behind
  | case2 depth kinds ih =>
    obtain ⟨inner, closes, split⟩ := ih behind
    exact ⟨.less :: inner, closes_cons_less.mpr closes, congrArg (.less :: ·) split⟩
  | case3 kinds => exact ⟨[], nested_nil, rfl⟩
  | case4 depth kinds ih =>
    obtain ⟨inner, closes, split⟩ := ih behind
    exact ⟨.greater :: inner, closes_cons_greater.mpr closes, congrArg (.greater :: ·) split⟩
  | case5 depth kind kinds notLess notFirst notGreater ih =>
    have notCloses : kind ≠ .greater := by
      rintro rfl
      cases depth with
      | zero => exact notFirst rfl rfl
      | succ depth => exact notGreater depth rfl rfl
    obtain ⟨inner, closes, split⟩ := ih behind
    exact ⟨kind :: inner, (closes_cons_other notLess notCloses).mpr closes, congrArg (kind :: ·) split⟩

/-! ### What an actor returns -/

theorem isModifier_iff : isModifier kind = true ↔ kind ∈ modifiers := by
  cases kind <;> simp [isModifier, modifiers]

theorem withoutTemplate_of_template {front : Header} (template : Template front) {kind : Kind}
    (other : kind ≠ .template) : withoutTemplate (front ++ kind :: rest) = kind :: rest := by
  cases template with
  | absent =>
    cases kind <;> first | rfl | exact absurd rfl other
  | clause nested => simpa [withoutTemplate] using behindClause_of_closes nested

/-- What stands before the part of a header that is asked for its return type is a template clause. -/
theorem exists_template (header : Header) (behind : header.withoutTemplate ≠ []) :
    ∃ front, Template front ∧ header = front ++ header.withoutTemplate := by
  unfold withoutTemplate at behind ⊢
  split
  next header =>
    obtain ⟨inner, closes, split⟩ := exists_closes header behind
    exact ⟨_, .clause closes, by simpa using split⟩
  next => exact ⟨[], .absent, rfl⟩

theorem returnType?_eq_some_iff (header : Header) (kind : Kind) :
    header.returnType? = some kind ↔ kind ∉ modifiers ∧ ∃ between rest, (∀ other ∈ between, other ∈ modifiers) ∧
      header.withoutTemplate = between ++ kind :: rest := by
  unfold returnType?
  simp only [List.find?_eq_some_iff_append, Bool.not_eq_true', Bool.not_not, ← Bool.not_eq_true, isModifier_iff]
  constructor
  · rintro ⟨other, between, rest, split, modified⟩
    exact ⟨other, between, rest, modified, split⟩
  · rintro ⟨other, between, rest, modified, split⟩
    exact ⟨other, between, rest, split, modified⟩

/-- A header returns a future or void just where this stands behind a template clause and modifiers. -/
theorem returnsFutureOrVoid_iff (header : Header) :
    header.returnsFutureOrVoid = true ↔ ∃ template between kind rest, Template template ∧
      (∀ other ∈ between, other ∈ modifiers) ∧ (kind = .future ∨ kind = .void) ∧
      header = template ++ between ++ kind :: rest := by
  have asked : header.returnsFutureOrVoid = true ↔
      ∃ kind, (kind = .future ∨ kind = .void) ∧ header.returnType? = some kind := by
    unfold returnsFutureOrVoid
    split <;> simp_all
  rw [asked]
  constructor
  · rintro ⟨kind, returns, begins⟩
    obtain ⟨-, between, rest, modified, split⟩ := (returnType?_eq_some_iff header kind).mp begins
    obtain ⟨template, clause, whole⟩ := exists_template header (by simp [split])
    exact ⟨template, between, kind, rest, clause, modified, returns, by rw [whole, split, List.append_assoc]⟩
  · rintro ⟨template, between, kind, rest, clause, modified, returns, rfl⟩
    refine ⟨kind, returns, (returnType?_eq_some_iff _ kind).mpr ⟨?_, between, rest, modified, ?_⟩⟩
    · rcases returns with rfl | rfl <;> decide
    · rw [List.append_assoc]
      cases between with
      | nil => exact withoutTemplate_of_template clause (by rcases returns with rfl | rfl <;> decide)
      | cons other between =>
        refine withoutTemplate_of_template clause ?_
        rintro rfl
        exact absurd (modified .template List.mem_cons_self) (by decide)

/-! ### The name -/

theorem openAngles_append (front behind : Header) :
    openAngles angles (front ++ behind) = openAngles (openAngles angles front) behind :=
  List.foldl_append

theorem nameBehind_cons (previous : Option Kind) (goesOn : ¬ (kind = .openParen ∧ angles = 0)) :
    nameBehind angles previous (kind :: kinds) = nameBehind (anglesBehind angles kind) (some kind) kinds := by
  rw [nameBehind.eq_def]
  dsimp only
  rw [if_neg goesOn]
  cases kind <;> rfl

theorem nameBehind_openParen (previous : Option Kind) (name : String) :
    nameBehind 0 previous (.openParen :: kinds) = some name ↔ previous = some (.identifier name) := by
  rw [nameBehind.eq_def]
  dsimp only
  rw [if_pos ⟨rfl, rfl⟩]
  cases previous with
  | none => simp
  | some kind => cases kind <;> simp

theorem sheltered_cons_iff :
    Sheltered angles (kind :: kinds) ↔
      ¬ (kind = .openParen ∧ angles = 0) ∧ Sheltered (anglesBehind angles kind) kinds := by
  constructor
  · intro sheltered
    refine ⟨?_, fun front behind split => ?_⟩
    · rintro ⟨rfl, free⟩
      exact sheltered [] kinds rfl free
    · exact sheltered (kind :: front) behind (by rw [split, List.cons_append])
  · rintro ⟨goesOn, sheltered⟩ front behind split
    cases front with
    | nil =>
      intro free
      exact goesOn ⟨(List.cons.inj split).1, free⟩
    | cons first front =>
      obtain ⟨rfl, same⟩ := List.cons.inj split
      exact sheltered front behind same

theorem sheltered_nil : Sheltered angles [] := by
  intro front behind split
  simp at split

/-- The last kind, or the one before if there is none. -/
theorem getLast?_cons_or (previous : Option Kind) :
    (kind :: kinds).getLast?.or previous = kinds.getLast?.or (some kind) := by
  rw [List.getLast?_cons]
  cases kinds.getLast? <;> rfl

/-- No name is found among sheltered kinds, and the last of them is the one before the others. -/
theorem nameBehind_append (previous : Option Kind) (sheltered : Sheltered angles kinds) :
    nameBehind angles previous (kinds ++ rest) =
      nameBehind (openAngles angles kinds) (kinds.getLast?.or previous) rest := by
  induction kinds generalizing angles previous with
  | nil => rfl
  | cons kind kinds ih =>
    obtain ⟨goesOn, inner⟩ := sheltered_cons_iff.mp sheltered
    rw [List.cons_append, nameBehind_cons previous goesOn, ih (some kind) inner, getLast?_cons_or]
    rfl

/-- Some kinds before the first parenthesis outside of angle brackets are sheltered. -/
theorem exists_sheltered (previous : Option Kind) {name : String}
    (named : nameBehind angles previous kinds = some name) :
    ∃ front behind, kinds = front ++ .openParen :: behind ∧ openAngles angles front = 0 ∧ Sheltered angles front ∧
      front.getLast?.or previous = some (.identifier name) := by
  induction kinds generalizing angles previous with
  | nil => simp [nameBehind] at named
  | cons kind kinds ih =>
    by_cases stops : kind = .openParen ∧ angles = 0
    · obtain ⟨rfl, rfl⟩ := stops
      exact ⟨[], kinds, rfl, rfl, sheltered_nil, (nameBehind_openParen previous name).mp named⟩
    · rw [nameBehind_cons previous stops] at named
      obtain ⟨front, behind, rfl, closed, sheltered, last⟩ := ih (some kind) named
      refine ⟨kind :: front, behind, rfl, closed, sheltered_cons_iff.mpr ⟨stops, sheltered⟩, ?_⟩
      rw [getLast?_cons_or, last]

/-- The name of a header is the identifier before the first parenthesis outside of angle brackets. -/
theorem name?_eq_some_iff (header : Header) (name : String) :
    header.name? = some name ↔ ∃ front behind, header = front ++ .identifier name :: .openParen :: behind ∧
      openAngles 0 front = 0 ∧ Sheltered 0 front := by
  constructor
  · intro named
    obtain ⟨whole, behind, rfl, closed, sheltered, last⟩ := exists_sheltered none named
    obtain ⟨front, rfl⟩ : ∃ front, whole = front ++ [.identifier name] := by
      simpa [List.getLast?_eq_some_iff] using last
    refine ⟨front, behind, by simp, ?_, fun before others split => ?_⟩
    · rw [openAngles_append] at closed
      exact closed
    · exact sheltered before (others ++ [.identifier name]) (by rw [split, List.append_assoc, List.cons_append])
  · rintro ⟨front, behind, rfl, closed, sheltered⟩
    unfold name?
    rw [nameBehind_append none sheltered, closed, nameBehind_cons _ (by simp)]
    exact (nameBehind_openParen _ name).mpr rfl

/-! ### Clauses -/

theorem Sheltered.append (front : Sheltered angles kinds) (behind : Sheltered (openAngles angles kinds) rest) :
    Sheltered angles (kinds ++ rest) := by
  induction kinds generalizing angles with
  | nil => exact behind
  | cons kind kinds ih =>
    obtain ⟨goesOn, inner⟩ := sheltered_cons_iff.mp front
    exact sheltered_cons_iff.mpr ⟨goesOn, ih inner behind⟩

/-- Kinds that close `depth` brackets close these of all that are open, and shelter their parentheses where more are. -/
theorem Closes.openAngles (closes : Closes depth kinds) :
    openAngles (angles + depth) kinds = angles ∧ (0 < angles → Sheltered (angles + depth) kinds) := by
  induction kinds generalizing depth with
  | nil =>
    cases depth with
    | zero => exact ⟨rfl, fun _ => sheltered_nil⟩
    | succ depth => exact absurd closes not_closes_nil
  | cons kind kinds ih =>
    cases kind with
    | less =>
      obtain ⟨closed, sheltered⟩ := ih (closes_cons_less.mp closes)
      exact ⟨closed, fun more => sheltered_cons_iff.mpr ⟨by simp, sheltered more⟩⟩
    | greater =>
      cases depth with
      | zero => exact absurd closes not_nested_cons_greater
      | succ depth =>
        obtain ⟨closed, sheltered⟩ := ih (closes_cons_greater.mp closes)
        exact ⟨closed, fun more => sheltered_cons_iff.mpr ⟨by simp, sheltered more⟩⟩
    | _ =>
      obtain ⟨closed, sheltered⟩ := ih ((closes_cons_other (by simp) (by simp)).mp closes)
      exact ⟨closed, fun more => sheltered_cons_iff.mpr ⟨by omega, sheltered more⟩⟩

theorem aside_nil : Aside [] :=
  ⟨rfl, sheltered_nil⟩

theorem Aside.append (front : Aside kinds) (behind : Aside rest) : Aside (kinds ++ rest) := by
  refine ⟨?_, front.sheltered.append (by rw [front.closed]; exact behind.sheltered)⟩
  rw [openAngles_append, front.closed, behind.closed]

theorem aside_of_plain (plain : ∀ kind ∈ kinds, kind ≠ .less ∧ kind ≠ .greater ∧ kind ≠ .openParen) : Aside kinds := by
  induction kinds with
  | nil => exact aside_nil
  | cons kind kinds ih =>
    obtain ⟨⟨notLess, notGreater, notParen⟩, others⟩ := List.forall_mem_cons.mp plain
    have single : Aside [kind] := by
      refine ⟨?_, sheltered_cons_iff.mpr ⟨fun parens => notParen parens.1, sheltered_nil⟩⟩
      cases kind <;> first | rfl | exact absurd rfl notLess
    exact single.append (ih others)

/-- A clause in angle brackets leaves none open, whatever it holds. -/
theorem aside_clause (nested : Nested kinds) : Aside (.less :: kinds ++ [.greater]) := by
  obtain ⟨closed, sheltered⟩ : openAngles 1 kinds = 1 ∧ (0 < 1 → Sheltered 1 kinds) := nested.openAngles
  have closing : Sheltered 1 [.greater] := sheltered_cons_iff.mpr ⟨by simp, sheltered_nil⟩
  refine ⟨?_, ?_⟩
  · change openAngles 1 (kinds ++ [.greater]) = 0
    rw [openAngles_append, closed]
    rfl
  · refine sheltered_cons_iff.mpr ⟨by simp, ?_⟩
    exact (sheltered Nat.one_pos).append (by rw [closed]; exact closing)

theorem aside_keyword_clause (plain : kind ≠ .less ∧ kind ≠ .greater ∧ kind ≠ .openParen) (nested : Nested kinds) :
    Aside (kind :: .less :: kinds ++ [.greater]) :=
  (aside_of_plain (List.forall_mem_singleton.mpr plain)).append (aside_clause nested)

theorem Template.aside {template : Header} (clause : Template template) : Aside template := by
  cases clause with
  | absent => exact aside_nil
  | clause nested => exact aside_keyword_clause (by decide) nested

theorem Returns.aside {returns : Header} (returned : Returns returns) : Aside returns := by
  cases returned with
  | void => exact aside_of_plain (List.forall_mem_singleton.mpr (by decide))
  | future nested => exact aside_keyword_clause (by decide) nested

theorem Returns.exists_kind {returns : Header} (returned : Returns returns) :
    ∃ kind rest, (kind = .future ∨ kind = .void) ∧ returns = kind :: rest := by
  cases returned with
  | void => exact ⟨_, _, .inr rfl, rfl⟩
  | future _ => exact ⟨_, _, .inl rfl, rfl⟩

theorem plain_of_mem_modifiers (modifies : kind ∈ modifiers) : kind ≠ .less ∧ kind ≠ .greater ∧ kind ≠ .openParen := by
  obtain rfl | rfl | rfl : kind = .static ∨ kind = .uncancellable ∨ kind = .identifier "inline" := by
    simpa [modifiers] using modifies
  all_goals decide

end

/-- A header of the usual shape is one of an actor, and declares the identifier before its parameters: a template clause
    if any, modifiers, what is returned, more that holds neither angle brackets nor an opening parenthesis, and the name
    with a parenthesis; what stands in a clause may be anything in which angle brackets are nested, and what is behind
    the parenthesis may be anything. Conversely a header returns a future or void only behind a template clause and
    modifiers, and it declares a name only where this stands before the first parenthesis outside of angle brackets. -/
theorem header_recognised :
    (∀ (template between returns front : Header) (name : String) (tail : Header), Template template →
      (∀ kind ∈ between, kind ∈ modifiers) → Returns returns →
      (∀ kind ∈ front, kind ≠ .less ∧ kind ≠ .greater ∧ kind ≠ .openParen) →
      let header : Header := template ++ between ++ returns ++ front ++ [.identifier name, .openParen] ++ tail
      header.returnsFutureOrVoid = true ∧ header.name? = some name) ∧
    (∀ header : Header, header.returnsFutureOrVoid = true ↔ ∃ template between kind rest, Template template ∧
      (∀ other ∈ between, other ∈ modifiers) ∧ (kind = .future ∨ kind = .void) ∧
      header = template ++ between ++ [kind] ++ rest) ∧
    ∀ (header : Header) (name : String), header.name? = some name ↔ ∃ front behind,
      header = front ++ [.identifier name, .openParen] ++ behind ∧ openAngles 0 front = 0 ∧ Sheltered 0 front := by
  have returning : ∀ header : Header, header.returnsFutureOrVoid = true ↔ ∃ template between kind rest,
      Template template ∧ (∀ other ∈ between, other ∈ modifiers) ∧ (kind = .future ∨ kind = .void) ∧
      header = template ++ between ++ [kind] ++ rest := by
    intro header
    simpa using returnsFutureOrVoid_iff header
  have naming : ∀ (header : Header) (name : String), header.name? = some name ↔ ∃ front behind,
      header = front ++ [.identifier name, .openParen] ++ behind ∧ openAngles 0 front = 0 ∧ Sheltered 0 front := by
    intro header name
    simpa using name?_eq_some_iff header name
  refine ⟨fun template between returns front name tail clause modified returned plain => ⟨?_, ?_⟩, returning, naming⟩
  · obtain ⟨kind, rest, begins, rfl⟩ := returned.exists_kind
    exact (returning _).mpr ⟨template, between, kind, rest ++ front ++ [.identifier name, .openParen] ++ tail, clause,
      modified, begins, by simp⟩
  · have between := aside_of_plain fun kind listed => plain_of_mem_modifiers (modified kind listed)
    obtain ⟨closed, sheltered⟩ := ((clause.aside.append between).append returned.aside).append (aside_of_plain plain)
    exact (naming _ name).mpr ⟨_, tail, rfl, closed, sheltered⟩

/-- A template clause with nested brackets and a parenthesis, two modifiers and a returned future of a pair do not hide
    the name. -/
theorem template_header_recognised :
    let inner : Header := [.identifier "class", .less, .openParen, .greater, .punctuation]
    let header : Header := (.template :: .less :: inner ++ [.greater]) ++ [.static, .identifier "inline"] ++
      (.future :: .less :: inner ++ [.greater]) ++ [.identifier "ns", .punctuation] ++ [.identifier "f", .openParen] ++
      [.greater, .openParen]
    Nested inner ∧ header.returnsFutureOrVoid = true ∧ header.name? = some "f" := by
  intro inner header
  have nested : Nested inner := by decide
  have modified : ∀ kind ∈ [Kind.static, .identifier "inline"], kind ∈ modifiers := by simp [modifiers]
  have plain : ∀ kind ∈ [Kind.identifier "ns", .punctuation], kind ≠ .less ∧ kind ≠ .greater ∧ kind ≠ .openParen := by
    simp
  exact ⟨nested, header_recognised.1 _ _ _ _ "f" [.greater, .openParen] (.clause nested) modified (.future nested)
    plain⟩

end Header

end Actor

end ActorSurface
