import ActorSurface.Proofs.Actor.Heading
import Mathlib.Algebra.Order.Group.Int

/-!
Balanced braces. What the grammar derives is balanced outside of headers (`Items.shows_balanced`); a header may
hold braces of any kind. A text that is balanced outside of headers is balanced throughout, if each of its
headers is so in itself (`Shows.balanced`).
-/

namespace ActorSurface

namespace Actor

open Token (Kind)

namespace Grammar

/-! ### Braces -/

/-- How many blocks a text opens. -/
def openBraces (lexemes : List Lexeme) : Nat :=
  lexemes.countP fun lexeme => lexeme.value = .openBrace

/-- How many blocks a text closes. -/
def closeBraces (lexemes : List Lexeme) : Nat :=
  lexemes.countP fun lexeme => lexeme.value = .closeBrace

/-- The braces of a text are balanced: nowhere have more blocks been closed than opened, and at the end as many
    have. -/
structure Balanced (lexemes : List Lexeme) : Prop where
  nowhere : ∀ front, front <+: lexemes → closeBraces front ≤ openBraces front
  total : closeBraces lexemes = openBraces lexemes

/-- How many more blocks a text opens than it closes. -/
def height (lexemes : List Lexeme) : Int :=
  openBraces lexemes - closeBraces lexemes

@[simp]
theorem height_nil : height [] = 0 := rfl

@[simp]
theorem height_append (one other : List Lexeme) : height (one ++ other) = height one + height other := by
  simp only [height, openBraces, closeBraces, List.countP_append]
  omega

theorem height_open {lexeme : Lexeme} (opens : lexeme.value = .openBrace) : height [lexeme] = 1 := by
  simp [height, openBraces, closeBraces, opens]

theorem height_close {lexeme : Lexeme} (closes : lexeme.value = .closeBrace) : height [lexeme] = -1 := by
  simp [height, openBraces, closeBraces, closes]

theorem height_other {lexeme : Lexeme} (notOpen : lexeme.value ≠ .openBrace) (notClose : lexeme.value ≠ .closeBrace) :
    height [lexeme] = 0 := by
  simp [height, openBraces, closeBraces, notOpen, notClose]

theorem height_cons (lexeme : Lexeme) (rest : List Lexeme) : height (lexeme :: rest) = height [lexeme] + height rest :=
  height_append [lexeme] rest

theorem balanced_iff {lexemes : List Lexeme} :
    Balanced lexemes ↔ (∀ front, front <+: lexemes → 0 ≤ height front) ∧ height lexemes = 0 := by
  unfold height
  constructor
  · rintro ⟨nowhere, total⟩
    refine ⟨fun front early => ?_, by omega⟩
    have := nowhere front early
    omega
  · rintro ⟨nowhere, total⟩
    refine ⟨fun front early => ?_, by omega⟩
    have := nowhere front early
    omega

theorem Balanced.height_eq_zero {lexemes : List Lexeme} (balanced : Balanced lexemes) : height lexemes = 0 :=
  (balanced_iff.mp balanced).2

theorem balanced_nil : Balanced [] := by
  refine balanced_iff.mpr ⟨fun front early => ?_, height_nil⟩
  rw [List.prefix_nil.mp early, height_nil]

theorem Balanced.append {one other : List Lexeme} (first : Balanced one) (second : Balanced other) :
    Balanced (one ++ other) := by
  obtain ⟨firstNowhere, firstTotal⟩ := balanced_iff.mp first
  obtain ⟨secondNowhere, secondTotal⟩ := balanced_iff.mp second
  refine balanced_iff.mpr ⟨fun front early => ?_, by rw [height_append, firstTotal, secondTotal, add_zero]⟩
  rcases List.prefix_or_prefix_of_prefix early (List.prefix_append one other) with inside | ⟨more, rfl⟩
  · exact firstNowhere front inside
  · rw [height_append, firstTotal, zero_add]
    exact secondNowhere more ((List.prefix_append_right_inj one).mp early)

theorem Balanced.cons {lexeme : Lexeme} {rest : List Lexeme} (notOpen : lexeme.value ≠ .openBrace)
    (notClose : lexeme.value ≠ .closeBrace) (behind : Balanced rest) : Balanced (lexeme :: rest) := by
  obtain ⟨nowhere, total⟩ := balanced_iff.mp behind
  have level := height_other notOpen notClose
  refine balanced_iff.mpr ⟨fun front early => ?_, by rw [height_cons, level, total, add_zero]⟩
  rcases List.prefix_cons_iff.mp early with rfl | ⟨more, rfl, inner⟩
  · exact height_nil.ge
  · rw [height_cons, level, zero_add]
    exact nowhere more inner

/-- Braces around a balanced text are balanced. -/
theorem Balanced.enclosed {opening closing : Lexeme} {inner : List Lexeme} (opens : opening.value = .openBrace)
    (closes : closing.value = .closeBrace) (inside : Balanced inner) : Balanced (opening :: inner ++ [closing]) := by
  obtain ⟨nowhere, total⟩ := balanced_iff.mp inside
  have ends : height (opening :: inner ++ [closing]) = 0 := by
    rw [height_append, height_cons, height_open opens, height_close closes, total]
    rfl
  refine balanced_iff.mpr ⟨fun front early => ?_, ends⟩
  rcases List.prefix_concat_iff.mp early with rfl | early
  · exact ends.ge
  rcases List.prefix_cons_iff.mp early with rfl | ⟨more, rfl, inner⟩
  · exact height_nil.ge
  · have above := nowhere more inner
    rw [height_cons, height_open opens]
    omega

theorem Balanced.block {opening closing : Lexeme} {inner rest : List Lexeme} (opens : opening.value = .openBrace)
    (closes : closing.value = .closeBrace) (inside : Balanced inner) (behind : Balanced rest) :
    Balanced (opening :: inner ++ closing :: rest) := by
  simpa using (inside.enclosed opens closes).append behind

theorem Body.balanced {body : List Lexeme} (derived : Body body) : Balanced body := by
  induction derived with
  | nil => exact balanced_nil
  | block opens closes _ _ insideIh restIh => exact insideIh.block opens closes restIh
  | other plain _ ih =>
    obtain ⟨-, notOpen, notClose⟩ := isStructural_eq_false_iff.mp plain
    exact ih.cons notOpen notClose

/-- Outside of headers, items are balanced. -/
theorem Items.shows_balanced {follow : Option Kind} {lexemes : List Lexeme} {declared : List Declaration}
    (derived : Items follow lexemes declared) : ∃ shown, Shows lexemes shown ∧ Balanced shown := by
  induction derived with
  | nil => exact ⟨[], ⟨rfl, rfl⟩, balanced_nil⟩
  | block opens closes _ _ insideIh restIh =>
    obtain ⟨shown, inside, insideBalanced⟩ := insideIh
    obtain ⟨others, behind, behindBalanced⟩ := restIh
    exact ⟨_, inside.block opens closes behind, insideBalanced.block opens closes behindBalanced⟩
  | forward isActor stops heads _ ih =>
    obtain ⟨others, behind, balanced⟩ := ih
    refine ⟨_, behind.forward isActor stops heads, ?_⟩
    exact .cons (by simp [isActor]) (by simp [isActor]) (.cons (by simp [stops]) (by simp [stops]) balanced)
  | actor isActor opens closes heads body _ ih =>
    obtain ⟨others, behind, balanced⟩ := ih
    refine ⟨_, behind.actor isActor opens closes heads body, ?_⟩
    exact .cons (by simp [isActor]) (by simp [isActor]) (body.balanced.block opens closes balanced)
  | wait waits _ _ ih =>
    obtain ⟨others, behind, balanced⟩ := ih
    obtain ⟨notActor, notOpen, notClose⟩ := isStructural_eq_false_iff.mp (isStructural_of_isWait waits)
    exact ⟨_, behind.cons notActor, balanced.cons notOpen notClose⟩
  | other plain _ _ ih =>
    obtain ⟨others, behind, balanced⟩ := ih
    obtain ⟨notActor, notOpen, notClose⟩ := isStructural_eq_false_iff.mp plain
    exact ⟨_, behind.cons notActor, balanced.cons notOpen notClose⟩

/-! ### Open braces -/

/-- Braces that a text leaves open, by their lines, the innermost first: behind each of them the text is balanced up to
    the next, and so it is in front of the outermost. -/
inductive LeavesOpen : List Lexeme → List Nat → Prop
  | none {lexemes : List Lexeme} : Balanced lexemes → LeavesOpen lexemes []
  | block {lexemes inner : List Lexeme} {opening : Lexeme} {lines : List Nat} : LeavesOpen lexemes lines →
      opening.value = .openBrace → Balanced inner → LeavesOpen (lexemes ++ opening :: inner) (opening.line :: lines)

theorem LeavesOpen.height {lexemes : List Lexeme} {lines : List Nat} (opened : LeavesOpen lexemes lines) :
    height lexemes = lines.length := by
  induction opened with
  | none balanced => exact balanced.height_eq_zero
  | block _ opens balanced ih =>
    rw [height_append, height_cons, ih, height_open opens, balanced.height_eq_zero]
    simp

/-- Nowhere has a text closed more blocks than opened, if it leaves some open. -/
theorem LeavesOpen.nowhere {lexemes : List Lexeme} {lines : List Nat} (opened : LeavesOpen lexemes lines) :
    ∀ front, front <+: lexemes → 0 ≤ Grammar.height front := by
  induction opened with
  | none balanced => exact (Grammar.balanced_iff.mp balanced).1
  | @block lexemes inner opening lines outer opens balanced ih =>
    intro front early
    rcases List.prefix_or_prefix_of_prefix early (List.prefix_append lexemes _) with inside | ⟨more, rfl⟩
    · exact ih front inside
    · have risen := outer.height
      rcases List.prefix_cons_iff.mp ((List.prefix_append_right_inj lexemes).mp early) with rfl | ⟨further, rfl, late⟩
      · rw [List.append_nil]
        omega
      · have above := (Grammar.balanced_iff.mp balanced).1 further late
        rw [height_append, height_cons, height_open opens]
        omega

theorem LeavesOpen.append {lexemes more : List Lexeme} {lines : List Nat} (opened : LeavesOpen lexemes lines)
    (balanced : Balanced more) : LeavesOpen (lexemes ++ more) lines := by
  cases opened with
  | none before => exact .none (before.append balanced)
  | block outer opens before => simpa using LeavesOpen.block outer opens (before.append balanced)

/-- A text leaves no brace open just where it is balanced. -/
theorem LeavesOpen.balanced_iff {lexemes : List Lexeme} {lines : List Nat} (opened : LeavesOpen lexemes lines) :
    Balanced lexemes ↔ lines = [] := by
  constructor
  · intro balanced
    have risen := opened.height
    rw [balanced.height_eq_zero] at risen
    exact List.length_eq_zero_iff.mp (by omega)
  · rintro rfl
    cases opened with
    | none balanced => exact balanced

/-- A brace behind which a text is balanced is the innermost that it leaves open. -/
def Innermost (lexemes : List Lexeme) (opening : Lexeme) : Prop :=
  ∃ front behind, lexemes = front ++ opening :: behind ∧ opening.value = .openBrace ∧ Balanced behind

theorem Innermost.of_line {lexemes : List Lexeme} {line : Nat} {lines : List Nat}
    (opened : LeavesOpen lexemes (line :: lines)) : ∃ opening, Innermost lexemes opening ∧ opening.line = line := by
  cases opened with
  | @block front inner opening _ _ opens balanced => exact ⟨opening, ⟨front, inner, rfl, opens, balanced⟩, rfl⟩

/-- No brace stands in a balanced text behind which the text is balanced. -/
theorem Balanced.not_innermost {lexemes : List Lexeme} (balanced : Balanced lexemes) (opening : Lexeme) :
    ¬ Innermost lexemes opening := by
  rintro ⟨front, behind, rfl, opens, rest⟩
  obtain ⟨nowhere, total⟩ := Grammar.balanced_iff.mp balanced
  have above := nowhere front (List.prefix_append ..)
  rw [height_append, height_cons, height_open opens, rest.height_eq_zero] at total
  omega

theorem Innermost.line_eq {lexemes : List Lexeme} {opening : Lexeme} {lines : List Nat}
    (innermost : Innermost lexemes opening) (opened : LeavesOpen lexemes lines) : ∃ others, lines = opening.line :: others := by
  cases opened with
  | none balanced => exact absurd innermost (balanced.not_innermost opening)
  | @block outer inner other lines _ opens balanced =>
    obtain ⟨front, behind, split, opensToo, rest⟩ := innermost
    -- Of two such braces neither stands behind the other, where the text is balanced.
    rcases append_cons_eq_cases split with ⟨middle, -, rfl⟩ | ⟨-, rfl, -⟩ | ⟨middle, -, rfl⟩
    · exact absurd ⟨middle, inner, rfl, opens, balanced⟩ (rest.not_innermost other)
    · exact ⟨lines, rfl⟩
    · exact absurd ⟨middle, behind, rfl, opensToo, rest⟩ (balanced.not_innermost opening)

/-! ### Headers that are balanced in themselves -/

/-- A header of a text, one that a brace or a semicolon ends. -/
def HasHeader (lexemes header : List Lexeme) : Prop :=
  ∃ before stop behind, lexemes = before ++ stop :: behind ∧ openHeader before = some header ∧
    openHeader (before ++ [stop]) = none

theorem HasHeader.append {lexemes header : List Lexeme} (has : HasHeader lexemes header) (more : List Lexeme) :
    HasHeader (lexemes ++ more) header := by
  obtain ⟨before, stop, behind, rfl, opened, ends⟩ := has
  exact ⟨before, stop, behind ++ more, by simp, opened, ends⟩

/-- Over balanced headers a text rises as it does outside of them, and by the header that it leaves open. -/
theorem height_eq_bare {lexemes : List Lexeme} (balanced : ∀ header, HasHeader lexemes header → Balanced header) :
    height lexemes = height (bare lexemes) + height ((openHeader lexemes).getD []) := by
  induction lexemes using List.reverseRecOn with
  | nil => rfl
  | append_singleton before lexeme ih =>
    have earlier := ih fun header has => balanced header (has.append [lexeme])
    have further : openHeader (before ++ [lexeme]) = headerBehind (openHeader before) lexeme := openHeader_append ..
    rw [height_append, earlier, bare_append_singleton, further]
    cases opened : openHeader before with
    | none =>
      have outside : ¬ InHeader before lexeme := by simp [InHeader, opened]
      -- A keyword that begins a header stands outside of it, and the header is empty so far.
      rw [if_neg outside, height_append, headerBehind_none_getD, Option.getD_none, height_nil]
      omega
    | some header =>
      rw [opened] at further
      cases behind : headerBehind (some header) lexeme with
      | none =>
        have outside : ¬ InHeader before lexeme := by simp [InHeader, further, behind]
        -- The header ends here, so it is one of those that are level as a whole.
        have ended := (balanced header ⟨before, lexeme, [], rfl, opened, further.trans behind⟩).height_eq_zero
        rw [if_neg outside, height_append, Option.getD_none, Option.getD_some, height_nil, ended]
        omega
      | some longer =>
        have inside : InHeader before lexeme := by simp [InHeader, further, behind, opened]
        rw [if_pos inside, Option.getD_some, Option.getD_some, eq_of_headerBehind behind, height_append]
        omega

/-- A header that a text closes later is the front of one of its headers. -/
theorem exists_header_of_openHeader {before behind header : List Lexeme} (opened : openHeader before = some header)
    (closed : openHeader (before ++ behind) = none) :
    ∃ whole, header <+: whole ∧ HasHeader (before ++ behind) whole := by
  induction behind generalizing before header with
  | nil =>
    rw [List.append_nil, opened] at closed
    cases closed
  | cons lexeme rest ih =>
    cases further : openHeader (before ++ [lexeme]) with
    | none => exact ⟨header, List.prefix_rfl, before, lexeme, rest, rfl, opened, further⟩
    | some longer =>
      have extended : header <+: longer := by
        rw [openHeader_append, opened] at further
        rw [eq_of_headerBehind further]
        exact List.prefix_append ..
      obtain ⟨whole, longerFront, has⟩ := ih further (by simpa using closed)
      exact ⟨whole, extended.trans longerFront, by simpa using has⟩

/-- A text is balanced if it is so outside of headers and in each of them. -/
theorem Shows.balanced {lexemes shown : List Lexeme} (shows : Shows lexemes shown) (outside : Balanced shown)
    (inside : ∀ header, HasHeader lexemes header → Balanced header) : Balanced lexemes := by
  obtain ⟨closed, rfl⟩ := shows
  obtain ⟨nowhere, total⟩ := balanced_iff.mp outside
  refine balanced_iff.mpr ⟨fun front early => ?_, by rw [height_eq_bare inside, closed, total]; rfl⟩
  obtain ⟨behind, rfl⟩ := early
  have risen := height_eq_bare fun header has => inside header (has.append behind)
  have shownFront : Grammar.bare front <+: Grammar.bare (front ++ behind) := by
    rw [bare_append]
    exact List.prefix_append ..
  have above := nowhere _ shownFront
  cases opened : openHeader front with
  | none =>
    rw [risen, opened, Option.getD_none, height_nil, add_zero]
    exact above
  | some header =>
    -- The header that is open here is closed further on, and no front of a balanced text falls below its start.
    obtain ⟨whole, headerFront, has⟩ := exists_header_of_openHeader opened closed
    have headerAbove := (balanced_iff.mp (inside whole has)).1 header headerFront
    rw [risen, opened, Option.getD_some]
    omega

end Grammar

end Actor

end ActorSurface
