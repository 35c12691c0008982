import ActorSurface.Actor.Scan

/-!
The grammar of actor structure. A file is a run of items (`Items`): blocks, actor declarations with or
without a body, names that happen to read `wait`, and tokens without structure. It is stated over the kinds
of token and their lines alone, next to the scan and independent of it; a derivation also lists the actors
that it passes.
-/

namespace ActorSurface

namespace Actor

open Token (Kind)

/-- A token as the grammar reads it: its kind, and the line on which it starts. -/
abbrev Lexeme := Located Kind

namespace Grammar

/-- Whether a kind is one of the two wait keywords. -/
def isWait (kind : Kind) : Bool :=
  kind = .wait || kind = .waitNext

/-- Whether a kind means something to the grammar wherever it stands in a body. -/
def isStructural (kind : Kind) : Bool :=
  kind = .actor || kind = .openBrace || kind = .closeBrace

/-- The parentheses that are open behind some kinds. One that closes nothing is passed over. -/
def openParens (kinds : List Kind) : Nat :=
  kinds.foldl (fun depth kind =>
    if kind = .openParen then depth + 1 else if kind = .closeParen then depth - 1 else depth) 0

/-- No brace opens and no semicolon stands outside the parentheses of a header. -/
def Unbroken (header : Header) : Prop :=
  ∀ before kind behind, header = before ++ kind :: behind → openParens before = 0 →
    kind ≠ .openBrace ∧ kind ≠ .semicolon

/-- A header that a brace or a semicolon can end, and the name of the actor it declares. -/
structure Heads (header : Header) (name : String) : Prop where
  unbroken : Unbroken header
  closed : openParens header = 0
  returns : header.returnsFutureOrVoid = true
  named : header.name? = some name

/-- The kind of the token that comes next where some tokens stand before one of kind `follow`, or before
    the end of the text. -/
def next (follow : Option Kind) : List Lexeme → Option Kind
  | [] => follow
  | lexeme :: _ => some lexeme.value

/-- The inside of an actor's body: blocks, and tokens other than braces and `ACTOR`. -/
inductive Body : List Lexeme → Prop
  | nil : Body []
  | block {opening closing : Lexeme} {inner rest : List Lexeme} : opening.value = .openBrace →
      closing.value = .closeBrace → Body inner → Body rest → Body (opening :: inner ++ closing :: rest)
  | other {lexeme : Lexeme} {rest : List Lexeme} : isStructural lexeme.value = false → Body rest →
      Body (lexeme :: rest)

/-- How often a body waits. -/
def waits (body : List Lexeme) : Nat :=
  body.countP fun lexeme => isWait lexeme.value

/-- Items one after the other, before a token of kind `follow` or before the end of the text, and the actors
    that they declare, in order. -/
inductive Items : Option Kind → List Lexeme → List Declaration → Prop
  | nil {follow : Option Kind} : Items follow [] []
  | block {follow : Option Kind} {opening closing : Lexeme} {inner rest : List Lexeme}
      {declared others : List Declaration} : opening.value = .openBrace → closing.value = .closeBrace →
      Items (some .closeBrace) inner declared → Items follow rest others →
      Items follow (opening :: inner ++ closing :: rest) (declared ++ others)
  | forward {follow : Option Kind} {keyword stop : Lexeme} {header rest : List Lexeme} {name : String}
      {others : List Declaration} : keyword.value = .actor → stop.value = .semicolon →
      Heads (header.map Located.value) name → Items follow rest others →
      Items follow (keyword :: header ++ stop :: rest) (⟨name, keyword.line, false, 0⟩ :: others)
  | actor {follow : Option Kind} {keyword opening closing : Lexeme} {header body rest : List Lexeme}
      {name : String} {others : List Declaration} : keyword.value = .actor → opening.value = .openBrace →
      closing.value = .closeBrace → Heads (header.map Located.value) name → Body body →
      Items follow rest others →
      Items follow (keyword :: header ++ opening :: body ++ closing :: rest)
        (⟨name, keyword.line, true, waits body⟩ :: others)
  | wait {follow : Option Kind} {lexeme : Lexeme} {rest : List Lexeme} {others : List Declaration} :
      isWait lexeme.value = true → next follow rest ≠ some .openParen → Items follow rest others →
      Items follow (lexeme :: rest) others
  | other {follow : Option Kind} {lexeme : Lexeme} {rest : List Lexeme} {others : List Declaration} :
      isStructural lexeme.value = false → isWait lexeme.value = false → Items follow rest others →
      Items follow (lexeme :: rest) others

/-- A whole file: items up to the end of the text. -/
def File (lexemes : List Lexeme) (declared : List Declaration) : Prop :=
  Items none lexemes declared

/-! ### Sequences -/

@[simp]
theorem next_append (follow : Option Kind) (one other : List Lexeme) :
    next follow (one ++ other) = next (next follow other) one := by
  cases one <;> rfl

theorem Body.append {one other : List Lexeme} (first : Body one) (second : Body other) :
    Body (one ++ other) := by
  induction first with
  | nil => exact second
  | @block opening closing inner rest opens closes inside _ _ ih =>
    simpa using Body.block opens closes inside ih
  | other plain _ ih => exact .other plain ih

/-- Items go on where the items before them end. -/
theorem Items.append {follow : Option Kind} {one other : List Lexeme} {declared others : List Declaration}
    (first : Items (next follow other) one declared) (second : Items follow other others) :
    Items follow (one ++ other) (declared ++ others) := by
  generalize between : next follow other = middle at first
  induction first with
  | nil => exact second
  | block opens closes inside _ _ ih => simpa using Items.block opens closes inside (ih between)
  | forward isActor stops heads _ ih => simpa using Items.forward isActor stops heads (ih between)
  | actor isActor opens closes heads body _ ih =>
    simpa using Items.actor isActor opens closes heads body (ih between)
  | wait waiting free _ ih =>
    rw [← between, ← next_append] at free
    exact .wait waiting free (ih between)
  | other plain notWait _ ih => exact .other plain notWait (ih between)

theorem openParens_append_singleton (kinds : List Kind) (kind : Kind) :
    openParens (kinds ++ [kind]) = State.parensBehind (openParens kinds) kind := by
  simp only [openParens, List.foldl_append, List.foldl_cons, List.foldl_nil]
  cases kind <;> rfl

theorem unbroken_nil : Unbroken [] := by
  intro before kind behind split
  simp at split

/-- A header stays unbroken by a further kind that does not end it. -/
theorem Unbroken.append_singleton {header : Header} (unbroken : Unbroken header) {kind : Kind}
    (inside : openParens header = 0 → kind ≠ .openBrace ∧ kind ≠ .semicolon) : Unbroken (header ++ [kind]) := by
  intro before other behind split closed
  rcases List.eq_nil_or_concat behind with rfl | ⟨front, last, rfl⟩
  · obtain ⟨rfl, same⟩ := List.append_inj' split rfl
    obtain rfl : kind = other := by simpa using same
    exact inside closed
  · have regrouped : header ++ [kind] = (before ++ other :: front) ++ [last] := by simpa using split
    exact unbroken before other front (List.append_inj' regrouped rfl).1 closed

end Grammar

end Actor

end ActorSurface
