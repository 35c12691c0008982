import ActorSurface.Proofs.Actor.Acceptance
import Mathlib.Data.List.Induction

/-!
Headers in a text, found token by token. A header begins behind an `ACTOR` keyword that stands outside of
headers and goes on to a brace or semicolon outside of its parentheses (`openHeader_eq_some_iff`), whatever
else stands in it. `bare` is the text without what its headers hold: keywords and the tokens that end a
header are outside. Every run of items closes its headers (`Items.openHeader`).
-/

namespace ActorSurface

namespace Actor

open Token (Kind Cursor)

/-! ### The tokens of a source -/

/-- A source lexes throughout, without a fault. -/
def Lexes (source : String) : Prop :=
  (Cursor.ofText source.toList).tokens.2 = none

instance (source : String) : Decidable (Lexes source) :=
  inferInstanceAs (Decidable (_ = none))

/-- The tokens of a source before its end, as the grammar reads them. -/
def lexemes (source : String) : List Lexeme :=
  ((Cursor.ofText source.toList).tokens.1.filter fun token => token.kind ≠ .endOfText).map
    (.ofToken (.ofText source.toList))

theorem exists_tokens_of_tokensOf {readings : List Token.Reading} {stop : Token}
    (faultless : (Cursor.tokensOf (readings ++ [.ok stop])).2 = none)
    (others : ∀ token, .ok token ∈ readings → token.kind ≠ .endOfText) :
    ∃ tokens : List Token, readings = tokens.map .ok := by
  induction readings with
  | nil => exact ⟨[], rfl⟩
  | cons reading rest ih =>
    cases reading with
    | error misread => simp [Cursor.tokensOf] at faultless
    | ok token =>
      have kind : token.kind ≠ .endOfText := others token List.mem_cons_self
      have onward : (Cursor.tokensOf (rest ++ [.ok stop])).2 = none := by
        simpa [Cursor.tokensOf, kind] using faultless
      obtain ⟨tokens, rfl⟩ := ih onward fun other listed => others other (List.mem_cons_of_mem _ listed)
      exact ⟨token :: tokens, rfl⟩

/-- What is read of a source that lexes are its tokens before the end. -/
theorem readings_of_lexes {source : String} (lexes : Lexes source) :
    Token.readings source.toList =
      ((Cursor.ofText source.toList).tokens.1.filter fun token => token.kind ≠ .endOfText).map .ok := by
  have others : ∀ token, .ok token ∈ Token.readings source.toList → token.kind ≠ .endOfText :=
    fun _ => Token.readings_kind_ne_endOfText
  obtain ⟨tokens, readings⟩ : ∃ tokens : List Token, Token.readings source.toList = tokens.map .ok :=
    exists_tokens_of_tokensOf lexes others
  have kept : tokens.filter (fun token => token.kind ≠ .endOfText) = tokens := by
    refine List.filter_eq_self.mpr fun token listed => ?_
    have delivered : .ok token ∈ Token.readings source.toList := readings ▸ List.mem_map_of_mem listed
    simpa using others token delivered
  have listed := (Cursor.tokens_ofText_iff source.toList tokens).mpr readings
  rw [readings, listed, List.filter_append, kept]
  simp [Token.atEnd]

/-- What the scan is told of a source that lexes are its tokens before the end. -/
theorem items_of_lexes {source : String} (lexes : Lexes source) :
    Token.items source.toList = (lexemes source).map Lexeme.item :=
  items_of_readings (readings_of_lexes lexes)

/-- The scan of a source that lexes is the run over its tokens. -/
theorem scan_of_lexes {source : String} (lexes : Lexes source) :
    scan source = (State.initial.run (lexemes source)).bind State.finish := by
  rw [scan, scanItems, items_of_lexes lexes]
  exact congrArg (fun run => run.bind State.finish) (foldlM_items _ _)

/-- A source lexes where no item of it is a fault. -/
theorem lexes_of_items {source : String} {items : List Lexeme}
    (faultless : Token.items source.toList = items.map Lexeme.item) : Lexes source := by
  obtain ⟨tokens, readings⟩ := readings_of_items faultless
  rw [Lexes, (Cursor.tokens_ofText_iff source.toList tokens).mpr readings]

/-- A source that the scan accepts lexes throughout. -/
theorem lexes_of_scan {source : String} {declared : List Declaration} (accepted : scan source = .ok declared) :
    Lexes source := by
  have goes : ∃ behind, (Token.items source.toList).foldlM State.step State.initial = .ok behind := by
    unfold scan scanItems at accepted
    cases run : (Token.items source.toList).foldlM State.step State.initial with
    | error fault =>
      rw [run] at accepted
      cases accepted
    | ok behind => exact ⟨behind, rfl⟩
  obtain ⟨behind, goes⟩ := goes
  obtain ⟨items, faultless⟩ := lexemes_of_foldlM goes
  exact lexes_of_items faultless

/-- A source that the scan accepts is a file of the grammar. -/
theorem file_of_scan {source : String} {declared : List Declaration} (accepted : scan source = .ok declared) :
    Grammar.File (lexemes source) declared := by
  apply (scanItems_eq_ok_iff _ _).mp
  rw [← items_of_lexes (lexes_of_scan accepted)]
  exact accepted

namespace Grammar

theorem isStructural_eq_false_iff {kind : Kind} :
    isStructural kind = false ↔ kind ≠ .actor ∧ kind ≠ .openBrace ∧ kind ≠ .closeBrace := by
  simp [isStructural, and_assoc]

theorem isStructural_of_isWait {kind : Kind} (waits : isWait kind = true) : isStructural kind = false := by
  cases kind <;> simp_all [isWait, isStructural]

/-! ### Positions -/

/-- The two ways round of one token and another in a text. -/
theorem append_cons_eq_cases {α : Type} {one other before behind : List α} {first second : α}
    (split : one ++ first :: other = before ++ second :: behind) :
    (∃ middle, one = before ++ second :: middle ∧ behind = middle ++ first :: other) ∨
      (one = before ∧ first = second ∧ other = behind) ∨
      ∃ middle, before = one ++ first :: middle ∧ other = middle ++ second :: behind := by
  rcases List.append_eq_append_iff.mp split with ⟨middle, rfl, rest⟩ | ⟨middle, rfl, rest⟩
  · rcases List.cons_eq_append_iff.mp rest with ⟨rfl, same⟩ | ⟨more, rfl, same⟩
    · obtain ⟨rfl, rfl⟩ := List.cons.inj same
      exact .inr (.inl ⟨by simp, rfl, rfl⟩)
    · exact .inr (.inr ⟨more, rfl, same⟩)
  · rcases List.cons_eq_append_iff.mp rest with ⟨rfl, same⟩ | ⟨more, rfl, same⟩
    · obtain ⟨rfl, rfl⟩ := List.cons.inj same
      exact .inr (.inl ⟨by simp, rfl, rfl⟩)
    · exact .inl ⟨more, rfl, same⟩

/-! ### Open headers -/

/-- The header that is open behind a further token. -/
def headerBehind (header : Option (List Lexeme)) (lexeme : Lexeme) : Option (List Lexeme) :=
  match header with
  | none => if lexeme.value = .actor then some [] else none
  | some inside =>
    if openParens (inside.map Located.value) = 0 ∧ (lexeme.value = .openBrace ∨ lexeme.value = .semicolon) then none
    else some (inside ++ [lexeme])

/-- The header that is open behind further tokens. -/
def headerThrough (header : Option (List Lexeme)) (lexemes : List Lexeme) : Option (List Lexeme) :=
  lexemes.foldl headerBehind header

/-- The header that a text leaves open, as far as it goes. -/
def openHeader (lexemes : List Lexeme) : Option (List Lexeme) :=
  headerThrough none lexemes

/-- A token that stands in a header: one is open before it and behind it. -/
def InHeader (before : List Lexeme) (lexeme : Lexeme) : Prop :=
  (openHeader before).isSome = true ∧ (openHeader (before ++ [lexeme])).isSome = true

instance (before : List Lexeme) (lexeme : Lexeme) : Decidable (InHeader before lexeme) :=
  inferInstanceAs (Decidable (_ ∧ _))

/-- The tokens that stand outside of headers, where `header` is open before the first. -/
def bareThrough (header : Option (List Lexeme)) : List Lexeme → List Lexeme
  | [] => []
  | lexeme :: rest =>
    let behind := headerBehind header lexeme
    if header.isSome ∧ behind.isSome then bareThrough behind rest else lexeme :: bareThrough behind rest

/-- The tokens of a text that stand outside of headers. -/
def bare (lexemes : List Lexeme) : List Lexeme :=
  bareThrough none lexemes

theorem headerThrough_cons (header : Option (List Lexeme)) (lexeme : Lexeme) (rest : List Lexeme) :
    headerThrough header (lexeme :: rest) = headerThrough (headerBehind header lexeme) rest := rfl

theorem headerThrough_append (header : Option (List Lexeme)) (one other : List Lexeme) :
    headerThrough header (one ++ other) = headerThrough (headerThrough header one) other :=
  List.foldl_append

theorem openHeader_append (one other : List Lexeme) :
    openHeader (one ++ other) = headerThrough (openHeader one) other :=
  List.foldl_append

theorem bareThrough_append (header : Option (List Lexeme)) (one other : List Lexeme) :
    bareThrough header (one ++ other) = bareThrough header one ++ bareThrough (headerThrough header one) other := by
  induction one generalizing header with
  | nil => rfl
  | cons lexeme rest ih =>
    simp only [List.cons_append, bareThrough, ih]
    split <;> rfl

theorem bare_append (one other : List Lexeme) :
    bare (one ++ other) = bare one ++ bareThrough (openHeader one) other :=
  bareThrough_append none one other

theorem inHeader_iff {before : List Lexeme} {lexeme : Lexeme} :
    InHeader before lexeme ↔
      (openHeader before).isSome = true ∧ (headerBehind (openHeader before) lexeme).isSome = true := by
  rw [InHeader, openHeader_append]
  rfl

theorem bare_append_singleton (lexemes : List Lexeme) (lexeme : Lexeme) :
    bare (lexemes ++ [lexeme]) = if InHeader lexemes lexeme then bare lexemes else bare lexemes ++ [lexeme] := by
  rw [bare_append]
  simp only [bareThrough, inHeader_iff]
  split <;> simp

theorem headerBehind_none_getD (lexeme : Lexeme) : (headerBehind none lexeme).getD [] = [] := by
  simp only [headerBehind]
  split <;> rfl

/-- A header that goes on behind a token holds that token. -/
theorem eq_of_headerBehind {header longer : List Lexeme} {lexeme : Lexeme}
    (goesOn : headerBehind (some header) lexeme = some longer) : longer = header ++ [lexeme] := by
  simp only [headerBehind] at goesOn
  split at goesOn
  · cases goesOn
  · exact (Option.some.inj goesOn).symm

/-- A header goes on through all that does not end it, and shows nothing of that outside. -/
theorem through_unbroken (front : List Lexeme) {header : List Lexeme}
    (unbroken : Unbroken ((front ++ header).map Located.value)) :
    headerThrough (some front) header = some (front ++ header) ∧ bareThrough (some front) header = [] := by
  induction header generalizing front with
  | nil => simp [headerThrough, bareThrough]
  | cons lexeme rest ih =>
    have inside := unbroken (front.map Located.value) lexeme.value (rest.map Located.value) (by simp)
    have first : headerBehind (some front) lexeme = some (front ++ [lexeme]) := by
      refine if_neg ?_
      rintro ⟨closed, opens | stops⟩
      · exact (inside closed).1 opens
      · exact (inside closed).2 stops
    obtain ⟨onward, hidden⟩ := ih (front ++ [lexeme]) (by simpa using unbroken)
    constructor
    · rw [headerThrough_cons, first, onward, List.append_assoc]
      rfl
    · simp [bareThrough, first, hidden]

/-- A header is open just where an `ACTOR` keyword outside of headers stands before it and nothing in it ends
    it. -/
theorem openHeader_eq_some_iff {lexemes header : List Lexeme} :
    openHeader lexemes = some header ↔ ∃ outer keyword, lexemes = outer ++ keyword :: header ∧
      keyword.value = .actor ∧ openHeader outer = none ∧ Unbroken (header.map Located.value) := by
  constructor
  · intro opened
    -- From the back: the last token begins the header, or it goes on with the one that was open before.
    induction lexemes using List.reverseRecOn generalizing header with
    | nil => cases opened
    | append_singleton before lexeme ih =>
      rw [openHeader_append] at opened
      change headerBehind (openHeader before) lexeme = some header at opened
      cases earlier : openHeader before with
      | none =>
        rw [earlier] at opened
        by_cases isActor : lexeme.value = .actor
        · obtain rfl : [] = header := by simpa [headerBehind, isActor] using opened
          exact ⟨before, lexeme, rfl, isActor, earlier, unbroken_nil⟩
        · simp [headerBehind, isActor] at opened
      | some inside =>
        obtain ⟨outer, keyword, rfl, isActor, outside, unbroken⟩ := ih earlier
        rw [earlier] at opened
        simp only [headerBehind] at opened
        split at opened
        · cases opened
        · rename_i goesOn
          obtain rfl := Option.some.inj opened
          refine ⟨outer, keyword, by simp, isActor, outside, ?_⟩
          have further : Unbroken (inside.map Located.value ++ [lexeme.value]) :=
            unbroken.append_singleton fun closed =>
              ⟨fun opens => goesOn ⟨closed, .inl opens⟩, fun stops => goesOn ⟨closed, .inr stops⟩⟩
          simpa using further
  · rintro ⟨outer, keyword, rfl, isActor, outside, unbroken⟩
    have began : headerBehind none keyword = some [] := if_pos isActor
    have goesOn := (through_unbroken [] (by simpa using unbroken)).1
    rw [openHeader_append, outside, headerThrough_cons, began, goesOn, List.nil_append]

/-! ### Texts that close their headers -/

/-- A text closes its headers, and this is what stands outside of them. -/
structure Shows (lexemes shown : List Lexeme) : Prop where
  closed : openHeader lexemes = none
  bare : bare lexemes = shown

theorem Shows.append {one other first second : List Lexeme} (left : Shows one first) (right : Shows other second) :
    Shows (one ++ other) (first ++ second) := by
  constructor
  · rw [openHeader_append, left.closed]
    exact right.closed
  · rw [bare_append, left.closed, left.bare]
    exact congrArg (first ++ ·) right.bare

/-- Without the keyword, a text has no header. -/
theorem shows_plain {lexemes : List Lexeme} (plain : ∀ lexeme ∈ lexemes, lexeme.value ≠ .actor) :
    Shows lexemes lexemes := by
  induction lexemes with
  | nil => exact ⟨rfl, rfl⟩
  | cons lexeme rest ih =>
    have here : Shows [lexeme] [lexeme] := by
      have other := plain lexeme List.mem_cons_self
      exact ⟨by simp [openHeader, headerThrough, headerBehind, other], by simp [Grammar.bare, bareThrough]⟩
    exact here.append (ih fun other listed => plain other (List.mem_cons_of_mem _ listed))

/-- Of a heading its keyword and its end stand outside of the header. -/
theorem shows_heading {keyword stop : Lexeme} {header : List Lexeme} {name : String}
    (isActor : keyword.value = .actor) (heads : Heads (header.map Located.value) name)
    (ends : stop.value = .openBrace ∨ stop.value = .semicolon) :
    Shows (keyword :: header ++ [stop]) [keyword, stop] := by
  have began : headerBehind none keyword = some [] := if_pos isActor
  have closes : headerBehind (some header) stop = none := if_pos ⟨heads.closed, ends⟩
  have unbroken : Unbroken (([] ++ header).map Located.value) := heads.unbroken
  obtain ⟨opened, hidden⟩ := through_unbroken [] unbroken
  rw [List.nil_append] at opened
  constructor
  · rw [openHeader, List.cons_append, headerThrough_cons, began, headerThrough_append, opened, headerThrough_cons,
      closes]
    rfl
  · have behind : bareThrough (some []) (header ++ [stop]) = [stop] := by
      rw [bareThrough_append, hidden, opened]
      simp [bareThrough, closes]
    simp [Grammar.bare, bareThrough, began, behind]

/-- No actor begins in a body. -/
theorem Body.ne_actor {body : List Lexeme} (derived : Body body) : ∀ lexeme ∈ body, lexeme.value ≠ .actor := by
  induction derived with
  | nil => simp
  | @block opening closing inner rest opens closes _ _ insideIh restIh =>
    simp only [List.cons_append, List.mem_cons, List.mem_append]
    rintro lexeme (rfl | inside | rfl | behind)
    · simp [opens]
    · exact insideIh lexeme inside
    · simp [closes]
    · exact restIh lexeme behind
  | @other lexeme rest plain _ ih =>
    intro other listed
    rcases List.mem_cons.mp listed with rfl | behind
    · exact (isStructural_eq_false_iff.mp plain).1
    · exact ih other behind

theorem Body.shows {body : List Lexeme} (derived : Body body) : Shows body body :=
  shows_plain derived.ne_actor

theorem Shows.cons {lexeme : Lexeme} {rest shown : List Lexeme} (other : lexeme.value ≠ .actor)
    (behind : Shows rest shown) : Shows (lexeme :: rest) (lexeme :: shown) := by
  have here : Shows [lexeme] [lexeme] := shows_plain (by simpa using other)
  exact here.append behind

theorem Shows.block {opening closing : Lexeme} {inner rest shown others : List Lexeme}
    (opens : opening.value = .openBrace) (closes : closing.value = .closeBrace) (inside : Shows inner shown)
    (behind : Shows rest others) :
    Shows (opening :: inner ++ closing :: rest) (opening :: shown ++ closing :: others) :=
  (inside.cons (by simp [opens])).append (behind.cons (by simp [closes]))

theorem Shows.forward {keyword stop : Lexeme} {header rest others : List Lexeme} {name : String}
    (isActor : keyword.value = .actor) (stops : stop.value = .semicolon)
    (heads : Heads (header.map Located.value) name) (behind : Shows rest others) :
    Shows (keyword :: header ++ stop :: rest) (keyword :: stop :: others) := by
  simpa using (shows_heading isActor heads (.inr stops)).append behind

theorem Shows.actor {keyword opening closing : Lexeme} {header body rest others : List Lexeme} {name : String}
    (isActor : keyword.value = .actor) (opens : opening.value = .openBrace) (closes : closing.value = .closeBrace)
    (heads : Heads (header.map Located.value) name) (derived : Body body) (behind : Shows rest others) :
    Shows (keyword :: header ++ opening :: body ++ closing :: rest)
      (keyword :: opening :: body ++ closing :: others) := by
  have notActor : closing.value ≠ .actor := by simp [closes]
  have heading := shows_heading isActor heads (.inl opens)
  simpa using heading.append (derived.shows.append (behind.cons notActor))

end Grammar

end Actor

end ActorSurface
