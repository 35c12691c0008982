import ActorSurface.Proofs.Actor.Heading

/-!
The declarations of a source and its `ACTOR` keywords. The keywords that stand outside of headers are the
declarations, one for one and in order, whatever the headers hold; so all the keywords of a source are
declared just where no header holds one (`declared_lines_iff`). A header that does hold one hides it.
-/

namespace ActorSurface

namespace Actor

open Token (Kind)

namespace Grammar

/-- The `ACTOR` keywords of a text. -/
def keywords (lexemes : List Lexeme) : List Lexeme :=
  lexemes.filter fun lexeme => lexeme.value = .actor

@[simp]
theorem keywords_nil : keywords [] = [] := rfl

@[simp]
theorem keywords_append (one other : List Lexeme) : keywords (one ++ other) = keywords one ++ keywords other :=
  List.filter_append ..

@[simp]
theorem keywords_cons (lexeme : Lexeme) (rest : List Lexeme) :
    keywords (lexeme :: rest) = if lexeme.value = .actor then lexeme :: keywords rest else keywords rest := by
  simp [keywords, List.filter_cons]

theorem Body.keywords {body : List Lexeme} (derived : Body body) : keywords body = [] := by
  refine List.filter_eq_nil_iff.mpr fun lexeme listed => ?_
  simpa using derived.ne_actor lexeme listed

/-- Items declare their keywords outside of headers. -/
theorem Items.shows_lines {follow : Option Kind} {lexemes : List Lexeme} {declared : List Declaration}
    (derived : Items follow lexemes declared) :
    ∃ shown, Shows lexemes shown ∧ (Grammar.keywords shown).map Located.line = declared.map Declaration.line := by
  induction derived with
  | nil => exact ⟨[], ⟨rfl, rfl⟩, rfl⟩
  | block opens closes _ _ insideIh restIh =>
    obtain ⟨shown, inside, insideLines⟩ := insideIh
    obtain ⟨others, behind, behindLines⟩ := restIh
    refine ⟨_, inside.block opens closes behind, ?_⟩
    simp [opens, closes, insideLines, behindLines]
  | forward isActor stops heads _ ih =>
    obtain ⟨others, behind, lines⟩ := ih
    refine ⟨_, behind.forward isActor stops heads, ?_⟩
    simp [isActor, stops, lines]
  | actor isActor opens closes heads body _ ih =>
    obtain ⟨others, behind, lines⟩ := ih
    refine ⟨_, behind.actor isActor opens closes heads body, ?_⟩
    simp [isActor, opens, closes, body.keywords, lines]
  | wait waits _ _ ih =>
    obtain ⟨others, behind, lines⟩ := ih
    have notActor := (isStructural_eq_false_iff.mp (isStructural_of_isWait waits)).1
    refine ⟨_, behind.cons notActor, ?_⟩
    simpa [notActor] using lines
  | other plain _ _ ih =>
    obtain ⟨others, behind, lines⟩ := ih
    have notActor := (isStructural_eq_false_iff.mp plain).1
    refine ⟨_, behind.cons notActor, ?_⟩
    simpa [notActor] using lines

theorem Items.closed {follow : Option Kind} {lexemes : List Lexeme} {declared : List Declaration}
    (derived : Items follow lexemes declared) : openHeader lexemes = none := by
  obtain ⟨shown, shows, -⟩ := derived.shows_lines
  exact shows.closed

theorem Items.lines {follow : Option Kind} {lexemes : List Lexeme} {declared : List Declaration}
    (derived : Items follow lexemes declared) :
    (Grammar.keywords (bare lexemes)).map Located.line = declared.map Declaration.line := by
  obtain ⟨shown, shows, lines⟩ := derived.shows_lines
  rw [shows.bare, lines]

/-! ### Keywords in headers -/

theorem bareThrough_sublist (header : Option (List Lexeme)) (lexemes : List Lexeme) :
    (bareThrough header lexemes).Sublist lexemes := by
  induction lexemes generalizing header with
  | nil => exact .slnil
  | cons lexeme rest ih =>
    simp only [bareThrough]
    split
    · exact (ih _).cons _
    · exact (ih _).cons_cons _

/-- Where no header holds a keyword, all keywords stand outside of headers. -/
theorem keywords_bare {lexemes : List Lexeme}
    (outside : ∀ before keyword behind, lexemes = before ++ keyword :: behind → keyword.value = .actor →
      ¬ InHeader before keyword) : keywords (bare lexemes) = keywords lexemes := by
  induction lexemes using List.reverseRecOn with
  | nil => rfl
  | append_singleton before lexeme ih =>
    have earlier := ih fun front keyword behind split =>
      outside front keyword (behind ++ [lexeme]) (by simp [split])
    rw [bare_append_singleton]
    by_cases inside : InHeader before lexeme
    · have notActor : lexeme.value ≠ .actor := fun isActor => outside before lexeme [] rfl isActor inside
      simpa [inside, notActor, keywords] using earlier
    · simp [inside, earlier]

/-- A keyword in a header is one that does not stand outside. -/
theorem keywords_bare_length_lt {before : List Lexeme} {keyword : Lexeme} (behind : List Lexeme)
    (isActor : keyword.value = .actor) (inside : InHeader before keyword) :
    (keywords (bare (before ++ keyword :: behind))).length < (keywords (before ++ keyword :: behind)).length := by
  have front : bare (before ++ [keyword]) = bare before := by rw [bare_append_singleton, if_pos inside]
  have split : bare (before ++ keyword :: behind) =
      bare before ++ bareThrough (openHeader (before ++ [keyword])) behind := by
    rw [← front, ← bare_append, List.append_assoc]
    rfl
  have frontLength := ((bareThrough_sublist none before).filter fun lexeme => lexeme.value = .actor).length_le
  have behindLength := ((bareThrough_sublist (openHeader (before ++ [keyword])) behind).filter
    fun lexeme => lexeme.value = .actor).length_le
  -- Neither part shows more keywords than it has, and the one between them is not shown.
  rw [split]
  simp only [keywords_append, keywords_cons, isActor, if_true, List.length_append, List.length_cons]
  unfold bare keywords
  omega

end Grammar

open Grammar

/-- The declarations of an accepted source stand on the lines of its keywords outside of headers, in order and
    one for one; and on those of all its keywords just where no keyword stands in a header. -/
theorem declared_lines_iff {source : String} {declared : List Declaration} (accepted : scan source = .ok declared) :
    Lexes source ∧
      declared.map Declaration.line = (keywords (bare (lexemes source))).map Located.line ∧
      (declared.map Declaration.line = (keywords (lexemes source)).map Located.line ↔
        ∀ before keyword behind, lexemes source = before ++ keyword :: behind → keyword.value = .actor →
          ¬ InHeader before keyword) := by
  have lines := (file_of_scan accepted).lines
  refine ⟨lexes_of_scan accepted, lines.symm, ?_⟩
  constructor
  · intro all before keyword behind split isActor inside
    have fewer := keywords_bare_length_lt behind isActor inside
    have same := congrArg List.length (lines.trans all)
    rw [split, List.length_map, List.length_map] at same
    omega
  · intro outside
    rw [← lines, keywords_bare outside]

/-- A declaration without a body and one with a body stand on the lines of their keywords. -/
theorem both_actors_declared :
    scan "ACTOR void f();\nACTOR void g() \x7b wait(h()); \x7d" = .ok [⟨"f", 1, false, 0⟩, ⟨"g", 2, true, 1⟩] ∧
      [1, 2] = (keywords (bare (lexemes "ACTOR void f();\nACTOR void g() \x7b wait(h()); \x7d"))).map
        Located.line := by
  have accepted : scan "ACTOR void f();\nACTOR void g() \x7b wait(h()); \x7d" =
      .ok [⟨"f", 1, false, 0⟩, ⟨"g", 2, true, 1⟩] := by decide +kernel
  exact ⟨accepted, (declared_lines_iff accepted).2.1⟩

/-- That every keyword of an accepted source is declared is not so: a header without an end hides the next one. -/
theorem not_all_keywords_declared :
    ¬ ∀ (source : String) (declared : List Declaration), scan source = .ok declared →
      declared.map Declaration.line = (keywords (lexemes source)).map Located.line := by
  intro claimed
  have accepted : scan "ACTOR void f()\nACTOR void g() \x7b wait(h()); \x7d" = .ok [⟨"f", 1, true, 1⟩] := by decide +kernel
  have lines : (keywords (lexemes "ACTOR void f()\nACTOR void g() \x7b wait(h()); \x7d")).map Located.line =
      [1, 2] := by decide +kernel
  have same := claimed _ _ accepted
  rw [lines] at same
  exact absurd same (by decide)

end Actor

end ActorSurface
