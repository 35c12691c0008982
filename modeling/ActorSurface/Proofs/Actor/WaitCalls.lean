import ActorSurface.Proofs.Actor.Keywords

/-!
Where the calls of an accepted source wait. A wait keyword before a parenthesis stands in a header or in the body
of a declared actor, which counts it (`wait_call_in_body_iff`). A header may hold any number of such calls; no
rule looks at them there.
-/

namespace ActorSurface

namespace Actor

open Token (Kind)

namespace Grammar

/-! ### Positions -/

/-- A token that stands in the body of an actor, strictly between its braces. The actor is the one that its
    keyword declares: it is declared with a body, and with the waits of that body. -/
inductive InBody (declared : List Declaration) (before : List Lexeme) (lexeme : Lexeme) (behind : List Lexeme) : Prop
  | within {outer header front back rest : List Lexeme} {keyword opening closing : Lexeme} {name : String} :
      before = outer ++ (keyword :: header ++ opening :: front) → behind = back ++ closing :: rest →
      openHeader outer = none → keyword.value = .actor → Heads (header.map Located.value) name →
      opening.value = .openBrace → closing.value = .closeBrace → Body (front ++ lexeme :: back) →
      declared[(keywords (bare outer)).length]? = some ⟨name, keyword.line, true, waits (front ++ lexeme :: back)⟩ →
      InBody declared before lexeme behind

/-- A token in the header of a heading. -/
theorem inHeader_of_heading {keyword lexeme : Lexeme} {front back : List Lexeme} {name : String}
    (isActor : keyword.value = .actor) (heads : Heads ((front ++ lexeme :: back).map Located.value) name) :
    InHeader (keyword :: front) lexeme := by
  have unbroken : ∀ part more : List Lexeme, part ++ more = front ++ lexeme :: back →
      openHeader (keyword :: part) = some part := by
    intro part more split
    refine openHeader_eq_some_iff.mpr ⟨[], keyword, rfl, isActor, rfl, ?_⟩
    intro before kind behind cut
    refine heads.unbroken before kind (behind ++ more.map Located.value) ?_
    rw [← split, List.map_append, cut]
    simp
  have before := unbroken front (lexeme :: back) rfl
  have behind := unbroken (front ++ [lexeme]) back (by simp)
  constructor
  · rw [before]
    rfl
  · rw [List.cons_append, behind]
    rfl

/-- No header is open in a body. -/
theorem InBody.not_inHeader {declared : List Declaration} {before behind : List Lexeme} {lexeme : Lexeme}
    (inBody : InBody declared before lexeme behind) : ¬ InHeader before lexeme := by
  obtain @⟨outer, header, front, back, rest, keyword, opening, closing, name, rfl, -, closed, isActor, heads, opens, -,
    body, -⟩ := inBody
  have outerShows : Shows outer (bare outer) := ⟨closed, rfl⟩
  have heading := shows_heading isActor heads (.inl opens)
  have frontShows : Shows front front := shows_plain fun other listed => body.ne_actor other (by simp [listed])
  have whole := outerShows.append (heading.append frontShows)
  intro inside
  have opened := inside.1
  simp only [List.append_assoc, List.cons_append, List.nil_append] at whole opened
  rw [whole.closed] at opened
  cases opened

/-! ### More text around a position -/

theorem openHeader_append_of_closed {front : List Lexeme} (closed : openHeader front = none) (lexemes : List Lexeme) :
    openHeader (front ++ lexemes) = openHeader lexemes := by
  rw [openHeader_append, closed]
  rfl

theorem InHeader.append_left {front before : List Lexeme} {lexeme : Lexeme} (closed : openHeader front = none)
    (inHeader : InHeader before lexeme) : InHeader (front ++ before) lexeme := by
  unfold InHeader
  rw [List.append_assoc, openHeader_append_of_closed closed, openHeader_append_of_closed closed]
  exact inHeader

theorem InBody.append_left {declared earlier : List Declaration} {front before behind : List Lexeme} {lexeme : Lexeme}
    (closed : openHeader front = none) (count : (keywords (bare front)).length = earlier.length)
    (inBody : InBody declared before lexeme behind) :
    InBody (earlier ++ declared) (front ++ before) lexeme behind := by
  obtain @⟨outer, header, inner, back, rest, keyword, opening, closing, name, rfl, rfl, outside, isActor, heads, opens,
    closes, body, declares⟩ := inBody
  have position : (keywords (bare (front ++ outer))).length = earlier.length + (keywords (bare outer)).length := by
    rw [bare_append, closed, keywords_append, List.length_append, count]
    rfl
  refine @InBody.within _ _ _ _ (front ++ outer) header inner back rest keyword opening closing name (by simp) rfl ?_
    isActor heads opens closes body ?_
  · rw [openHeader_append_of_closed closed, outside]
  · rw [position, List.getElem?_append_right (Nat.le_add_right ..), Nat.add_sub_cancel_left]
    exact declares

theorem InBody.append_right {declared : List Declaration} {before behind : List Lexeme} {lexeme : Lexeme}
    (inBody : InBody declared before lexeme behind) (later : List Declaration) (more : List Lexeme) :
    InBody (declared ++ later) before lexeme (behind ++ more) := by
  obtain @⟨outer, header, inner, back, rest, keyword, opening, closing, name, rfl, rfl, outside, isActor, heads, opens,
    closes, body, declares⟩ := inBody
  obtain ⟨early, -⟩ := List.getElem?_eq_some_iff.mp declares
  refine @InBody.within _ _ _ _ outer header inner back (rest ++ more) keyword opening closing name rfl (by simp)
    outside isActor heads opens closes body ?_
  rw [List.getElem?_append_left early]
  exact declares

/-- A token that stands in a header or in the body of a declared actor. -/
def Settled (declared : List Declaration) (before : List Lexeme) (lexeme : Lexeme) (behind : List Lexeme) : Prop :=
  InHeader before lexeme ∨ InBody declared before lexeme behind

theorem Settled.cons {declared : List Declaration} {before behind : List Lexeme} {first lexeme : Lexeme}
    (notActor : first.value ≠ .actor) (settled : Settled declared before lexeme behind) :
    Settled declared (first :: before) lexeme behind := by
  obtain ⟨closed, shown⟩ : Shows [first] [first] := shows_plain (by simpa using notActor)
  have count : (keywords (bare [first])).length = ([] : List Declaration).length := by simp [shown, notActor]
  rcases settled with inHeader | inBody
  · exact .inl (inHeader.append_left closed)
  · exact .inr (inBody.append_left closed count)

/-- Behind some items a position is what it is without them. -/
theorem Settled.behind_items {follow : Option Kind} {declared earlier : List Declaration}
    {front before behind : List Lexeme} {lexeme : Lexeme} (derived : Items follow front earlier)
    (settled : Settled declared before lexeme behind) :
    Settled (earlier ++ declared) (front ++ before) lexeme behind := by
  have count : (keywords (bare front)).length = earlier.length := by
    simpa using congrArg List.length derived.lines
  rcases settled with inHeader | inBody
  · exact .inl (inHeader.append_left derived.closed)
  · exact .inr (inBody.append_left derived.closed count)

theorem Settled.append_right {declared : List Declaration} {before behind : List Lexeme} {lexeme : Lexeme}
    (settled : Settled declared before lexeme behind) (later : List Declaration) (more : List Lexeme) :
    Settled (declared ++ later) before lexeme (behind ++ more) :=
  settled.imp id fun inBody => inBody.append_right later more

/-- A wait in a heading stands in its header. -/
theorem inHeader_of_wait {keyword call : Lexeme} {header before middle : List Lexeme} {name : String}
    (split : keyword :: header = before ++ call :: middle) (isActor : keyword.value = .actor)
    (heads : Heads (header.map Located.value) name) (isCall : isWait call.value = true) : InHeader before call := by
  rcases List.cons_eq_append_iff.mp split with ⟨rfl, same⟩ | ⟨more, rfl, rfl⟩
  · obtain ⟨rfl, -⟩ := List.cons.inj same
    simp [isActor, isWait] at isCall
  · exact inHeader_of_heading isActor heads

/-- A wait in items stands in a header or in a body, where a parenthesis opens behind it. -/
theorem Items.wait_call {follow : Option Kind} {lexemes : List Lexeme} {declared : List Declaration}
    (derived : Items follow lexemes declared) {before behind : List Lexeme} {call : Lexeme}
    (split : lexemes = before ++ call :: behind) (isCall : isWait call.value = true)
    (called : next follow behind = some .openParen) : Settled declared before call behind := by
  have differs : ∀ {lexeme : Lexeme}, isWait lexeme.value = false → lexeme ≠ call := by
    rintro lexeme notWait rfl
    rw [isCall] at notWait
    cases notWait
  induction derived generalizing before behind with
  | nil => simp at split
  | @block follow opening closing inner rest declared others opens closes inside _ insideIh restIh =>
    rcases append_cons_eq_cases split with ⟨middle, front, rfl⟩ | ⟨-, same, -⟩ | ⟨middle, rfl, rfl⟩
    · rcases List.cons_eq_append_iff.mp front with ⟨rfl, same⟩ | ⟨more, rfl, rfl⟩
      · exact absurd (List.cons.inj same).1.symm (differs (by simp [opens, isWait]))
      · rw [next_append] at called
        simp only [next, closes] at called
        exact ((insideIh rfl called).append_right others (closing :: rest)).cons (by simp [opens])
    · exact absurd same (differs (by simp [closes, isWait]))
    · have front : Items (next follow middle) (opening :: inner ++ [closing]) (declared ++ []) :=
        .block opens closes inside .nil
      simpa using (restIh rfl called).behind_items front
  | @forward follow keyword stop header rest name others isActor stops heads _ ih =>
    rcases append_cons_eq_cases split with ⟨middle, heading, -⟩ | ⟨-, same, -⟩ | ⟨middle, rfl, rfl⟩
    · exact .inl (inHeader_of_wait heading isActor heads isCall)
    · exact absurd same (differs (by simp [stops, isWait]))
    · have front : Items (next follow middle) (keyword :: header ++ [stop]) [⟨name, keyword.line, false, 0⟩] :=
        .forward isActor stops heads .nil
      simpa using (ih rfl called).behind_items front
  | @actor follow keyword opening closing header body rest name others isActor opens closes heads inside _ ih =>
    rcases append_cons_eq_cases split with ⟨middle, whole, rfl⟩ | ⟨-, same, -⟩ | ⟨middle, rfl, rfl⟩
    · -- Before the closing brace the call is in the header, or behind the opening brace in the body.
      rcases append_cons_eq_cases whole with ⟨inner, heading, -⟩ | ⟨-, same, -⟩ | ⟨inner, rfl, rfl⟩
      · exact .inl (inHeader_of_wait heading isActor heads isCall)
      · exact absurd same (differs (by simp [opens, isWait]))
      · exact .inr (@InBody.within _ _ _ _ [] header inner middle rest keyword opening closing name (by simp) rfl rfl
          isActor heads opens closes inside rfl)
    · exact absurd same (differs (by simp [closes, isWait]))
    · have front : Items (next follow middle) (keyword :: header ++ opening :: body ++ [closing])
          [⟨name, keyword.line, true, waits body⟩] := .actor isActor opens closes heads inside .nil
      simpa using (ih rfl called).behind_items front
  | @wait follow lexeme rest others waits free _ ih =>
    rcases List.cons_eq_append_iff.mp split with ⟨rfl, same⟩ | ⟨more, rfl, rfl⟩
    · obtain ⟨-, rfl⟩ := List.cons.inj same
      exact absurd called free
    · exact (ih rfl called).cons (isStructural_eq_false_iff.mp (isStructural_of_isWait waits)).1
  | @other follow lexeme rest others plain notWait _ ih =>
    rcases List.cons_eq_append_iff.mp split with ⟨rfl, same⟩ | ⟨more, rfl, rfl⟩
    · exact absurd (List.cons.inj same).1.symm (differs notWait)
    · exact (ih rfl called).cons (isStructural_eq_false_iff.mp plain).1

end Grammar

open Grammar

/-- A wait call of an accepted source, a wait keyword before a parenthesis, stands in the body of a declared actor,
    which counts it, just where it does not stand in a header. -/
theorem wait_call_in_body_iff {source : String} {declared : List Declaration} (accepted : scan source = .ok declared) :
    Lexes source ∧ ∀ before call paren behind, lexemes source = before ++ call :: paren :: behind →
      isWait call.value = true → paren.value = .openParen →
        (InBody declared before call (paren :: behind) ↔ ¬ InHeader before call) := by
  refine ⟨lexes_of_scan accepted, fun before call paren behind split isCall opens => ?_⟩
  have settled : Settled declared before call (paren :: behind) :=
    (file_of_scan accepted).wait_call split isCall (by simp [next, opens])
  exact ⟨InBody.not_inHeader, settled.resolve_left⟩

/-- The call in the body of an actor is counted. -/
theorem wait_call_counted :
    scan "ACTOR void f() \x7b wait(g()); \x7d" = .ok [⟨"f", 1, true, 1⟩] ∧
      InBody [⟨"f", 1, true, 1⟩]
        [⟨1, .actor⟩, ⟨1, .void⟩, ⟨1, .identifier "f"⟩, ⟨1, .openParen⟩, ⟨1, .closeParen⟩, ⟨1, .openBrace⟩] ⟨1, .wait⟩
        [⟨1, .openParen⟩, ⟨1, .identifier "g"⟩, ⟨1, .openParen⟩, ⟨1, .closeParen⟩, ⟨1, .closeParen⟩, ⟨1, .semicolon⟩,
          ⟨1, .closeBrace⟩] := by
  have accepted : scan "ACTOR void f() \x7b wait(g()); \x7d" = .ok [⟨"f", 1, true, 1⟩] := by decide +kernel
  refine ⟨accepted, ((wait_call_in_body_iff accepted).2 _ _ _ _ ?_ rfl rfl).mpr (by decide)⟩
  decide +kernel

/-- That every wait call of an accepted source is counted is not so: one in a header is not. -/
theorem not_all_wait_calls_counted :
    ¬ ∀ (source : String) (declared : List Declaration), scan source = .ok declared →
      ∀ before call paren behind, lexemes source = before ++ call :: paren :: behind →
        isWait call.value = true → paren.value = .openParen →
          InBody declared before call (paren :: behind) := by
  intro claimed
  have accepted : scan "ACTOR void f(int x = wait(g()));" = .ok [⟨"f", 1, false, 0⟩] := by decide +kernel
  have tokens : lexemes "ACTOR void f(int x = wait(g()));" =
      [⟨1, .actor⟩, ⟨1, .void⟩, ⟨1, .identifier "f"⟩, ⟨1, .openParen⟩, ⟨1, .identifier "int"⟩, ⟨1, .identifier "x"⟩,
        ⟨1, .punctuation⟩] ++ ⟨1, .wait⟩ :: ⟨1, .openParen⟩ :: [⟨1, .identifier "g"⟩, ⟨1, .openParen⟩, ⟨1, .closeParen⟩,
        ⟨1, .closeParen⟩, ⟨1, .closeParen⟩, ⟨1, .semicolon⟩] := by decide +kernel
  have inBody := claimed _ _ accepted _ _ _ _ tokens rfl rfl
  exact inBody.not_inHeader (by decide)

end Actor

end ActorSurface
