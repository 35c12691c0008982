import ActorSurface.Proofs.Actor.Derivation

/-!
What the scan knows of the text behind it. In every state that it reaches, the tokens read so far are a
derivation that stops short: items, then for each open block its brace and the items in it, and behind
these a header or the body of an actor as far as it was read (`Reached`). One token takes such a state to
such a state (`reached_read`), so a whole run does (`reached_run`).
-/

namespace ActorSurface

namespace Actor

open Token (Kind)

namespace State

open Grammar (Items Body Heads Unbroken)

/-- Open blocks outside of actors, the innermost first, and what was read of them: items, then each brace
    with the items behind it. -/
inductive Opened : Option Kind → List Block → List Lexeme → List Declaration → Prop
  | none {follow : Option Kind} {lexemes : List Lexeme} {declared : List Declaration} :
      Items follow lexemes declared → Opened follow [] lexemes declared
  | block {follow : Option Kind} {blocks : List Block} {lexemes inner : List Lexeme} {opening : Lexeme}
      {declared more : List Declaration} : Opened (some .openBrace) blocks lexemes declared →
      opening.value = .openBrace → Items follow inner more →
      Opened follow (⟨opening.line, Option.none⟩ :: blocks) (lexemes ++ opening :: inner) (declared ++ more)

/-- Open blocks in the body of an actor, the innermost first, and what was read of that body. -/
inductive OpenedInside : List Block → List Lexeme → Prop
  | none {body : List Lexeme} : Body body → OpenedInside [] body
  | block {blocks : List Block} {body inner : List Lexeme} {opening : Lexeme} : OpenedInside blocks body →
      opening.value = .openBrace → Body inner →
      OpenedInside (⟨opening.line, Option.none⟩ :: blocks) (body ++ opening :: inner)

/-- A state that the scan reaches, and the tokens that it has read by then. -/
inductive Reached : State → List Lexeme → Prop
  | outside {blocks : List Block} {lexemes : List Lexeme} {declared : List Declaration} :
      (∀ follow, Opened follow blocks lexemes declared) →
      Reached ⟨blocks, declared.toArray, none, .outside⟩ lexemes
  | behindWait {blocks : List Block} {lexemes : List Lexeme} {declared : List Declaration} {line : Nat} :
      (∀ follow, follow ≠ some .openParen → Opened follow blocks lexemes declared) →
      Reached ⟨blocks, declared.toArray, none, .behindWait line⟩ lexemes
  | header {blocks : List Block} {lexemes header : List Lexeme} {declared : List Declaration}
      {keyword : Lexeme} : Opened (some .actor) blocks lexemes declared → keyword.value = .actor →
      Unbroken (header.map Located.value) →
      Reached ⟨blocks, declared.toArray, none, .header keyword.line
        (Grammar.openParens (header.map Located.value)) (header.map Located.value).reverse⟩
        (lexemes ++ keyword :: header)
  | body {blocks inside : List Block} {lexemes header body : List Lexeme} {declared : List Declaration}
      {keyword opening : Lexeme} {name : String} : Opened (some .actor) blocks lexemes declared →
      keyword.value = .actor → Heads (header.map Located.value) name → opening.value = .openBrace →
      OpenedInside inside body →
      Reached ⟨inside ++ ⟨opening.line, some declared.length⟩ :: blocks,
        (declared ++ [(⟨name, keyword.line, true, Grammar.waits body⟩ : Declaration)]).toArray,
        some declared.length, .outside⟩ (lexemes ++ keyword :: header ++ opening :: body)

theorem reached_initial : Reached initial [] :=
  .outside fun _ => .none .nil

/-! ### Going on -/

theorem Opened.append {follow : Option Kind} {blocks : List Block} {lexemes more : List Lexeme}
    {declared others : List Declaration} (opened : Opened (Grammar.next follow more) blocks lexemes declared)
    (items : Items follow more others) : Opened follow blocks (lexemes ++ more) (declared ++ others) := by
  cases opened with
  | none derived => exact .none (derived.append items)
  | block outer opens derived => simpa using Opened.block outer opens (derived.append items)

/-- A brace that closes a block outside of actors makes an item of it. -/
theorem Opened.close {follow : Option Kind} {block : Block} {blocks : List Block} {lexemes : List Lexeme}
    {declared : List Declaration} {closing : Lexeme}
    (opened : Opened (some .closeBrace) (block :: blocks) lexemes declared)
    (closes : closing.value = .closeBrace) :
    block.actor = Option.none ∧ Opened follow blocks (lexemes ++ [closing]) declared := by
  cases opened with
  | @block _ _ before inner opening earlier more outer opens derived =>
    refine ⟨rfl, ?_⟩
    have next : Grammar.next follow (opening :: inner ++ [closing]) = some .openBrace := by
      simp [Grammar.next, opens]
    rw [← next] at outer
    simpa using outer.append (.block opens closes derived .nil)

theorem OpenedInside.append {blocks : List Block} {body more : List Lexeme}
    (opened : OpenedInside blocks body) (derived : Body more) : OpenedInside blocks (body ++ more) := by
  cases opened with
  | none before => exact .none (before.append derived)
  | block outer opens before => simpa using OpenedInside.block outer opens (before.append derived)

/-- A brace that closes a block in a body makes it a part of that body. -/
theorem OpenedInside.close {block : Block} {blocks : List Block} {body : List Lexeme} {closing : Lexeme}
    (opened : OpenedInside (block :: blocks) body) (closes : closing.value = .closeBrace) :
    block.actor = Option.none ∧ OpenedInside blocks (body ++ [closing]) := by
  cases opened with
  | block outer opens derived => exact ⟨rfl, by simpa using outer.append (.block opens closes derived .nil)⟩

theorem waits_append_singleton (body : List Lexeme) (lexeme : Lexeme) :
    Grammar.waits (body ++ [lexeme]) = Grammar.waits body + Grammar.waits [lexeme] :=
  List.countP_append

theorem waits_append_brace (body : List Lexeme) {lexeme : Lexeme}
    (structural : Grammar.isStructural lexeme.value = true) : Grammar.waits (body ++ [lexeme]) = Grammar.waits body := by
  have noWait : Grammar.waits [lexeme] = 0 := by
    obtain ⟨line, kind⟩ := lexeme
    cases kind <;> simp_all [Grammar.isStructural, Grammar.waits, Grammar.isWait]
  rw [waits_append_singleton, noWait, Nat.add_zero]

/-! ### One token -/

section

variable {blocks : List Block} {lexemes : List Lexeme} {declared : List Declaration} {mode : Mode}
  {lexeme : Lexeme} {behind : State}

/-- A token outside of actors and headers, where what was read is open before it. -/
theorem reached_read_outside (resting : Mode.Resting mode (some lexeme.value))
    (opened : Opened (some lexeme.value) blocks lexemes declared)
    (goes : (⟨blocks, declared.toArray, none, mode⟩ : State).read lexeme = .ok behind) :
    Reached behind (lexemes ++ [lexeme]) := by
  by_cases isActor : lexeme.value = .actor
  · rw [read_resting resting, isActor] at goes
    obtain rfl := Except.ok.inj goes
    rw [isActor] at opened
    exact @Reached.header blocks lexemes [] declared lexeme opened isActor Grammar.unbroken_nil
  by_cases opens : lexeme.value = .openBrace
  · rw [read_block resting opens] at goes
    obtain rfl := Except.ok.inj goes
    rw [opens] at opened
    exact .outside fun _ => by simpa using Opened.block opened opens .nil
  by_cases closes : lexeme.value = .closeBrace
  · cases blocks with
    | nil =>
      rw [read_resting resting, closes] at goes
      cases goes
    | cons block blocks =>
      rw [read_closing resting closes] at goes
      obtain rfl := Except.ok.inj goes
      rw [closes] at opened
      obtain ⟨plain, -⟩ : block.actor = none ∧ Opened none blocks (lexemes ++ [lexeme]) declared :=
        opened.close closes
      simpa [plain] using Reached.outside fun _ => (opened.close closes).2
  have plain : Grammar.isStructural lexeme.value = false := by
    simp [Grammar.isStructural, isActor, opens, closes]
  by_cases waits : Grammar.isWait lexeme.value = true
  · rw [read_wait_outside resting waits] at goes
    obtain rfl := Except.ok.inj goes
    refine .behindWait fun follow free => ?_
    have before : Opened (Grammar.next follow [lexeme]) blocks lexemes declared := opened
    simpa using before.append (.wait waits free .nil)
  · have notWait : Grammar.isWait lexeme.value = false := by simpa using waits
    rw [read_plain_outside resting plain notWait] at goes
    obtain rfl := Except.ok.inj goes
    refine .outside fun follow => ?_
    have before : Opened (Grammar.next follow [lexeme]) blocks lexemes declared := opened
    simpa using before.append (.other plain notWait .nil)

/-- The scan asks the two questions about a header only where it ends. -/
theorem exists_heads {header : List Lexeme} {keyword : Lexeme} (unbroken : Unbroken (header.map Located.value))
    (closed : Grammar.openParens (header.map Located.value) = 0)
    (terminator : lexeme.value = .openBrace ∨ lexeme.value = .semicolon)
    (goes : (⟨blocks, declared.toArray, none, .header keyword.line 0 (header.map Located.value).reverse⟩ : State).read
      lexeme = .ok behind) : ∃ name, Heads (header.map Located.value) name := by
  have declares : ∃ hasBody, (⟨blocks, declared.toArray, none, .header keyword.line 0
      (header.map Located.value).reverse⟩ : State).declare keyword.line (header.map Located.value)
        hasBody lexeme.line = .ok behind := by
    rcases terminator with opens | stops
    · exact ⟨true, by simpa [read, step, inHeader, opens] using goes⟩
    · exact ⟨false, by simpa [read, step, inHeader, stops] using goes⟩
  obtain ⟨hasBody, declares⟩ := declares
  unfold declare at declares
  split at declares
  · rename_i returns
    split at declares
    · cases declares
    · rename_i name named
      exact ⟨name, unbroken, closed, returns, named⟩
  · cases declares

/-- A token of a header. -/
theorem reached_read_header {header : List Lexeme} {keyword : Lexeme}
    (opened : Opened (some .actor) blocks lexemes declared) (isActor : keyword.value = .actor)
    (unbroken : Unbroken (header.map Located.value))
    (goes : (⟨blocks, declared.toArray, none, .header keyword.line
      (Grammar.openParens (header.map Located.value)) (header.map Located.value).reverse⟩ : State).read lexeme =
        .ok behind) :
    Reached behind (lexemes ++ keyword :: header ++ [lexeme]) := by
  by_cases ends : Grammar.openParens (header.map Located.value) = 0 ∧
      (lexeme.value = .openBrace ∨ lexeme.value = .semicolon)
  · obtain ⟨closed, terminator⟩ := ends
    rw [closed] at goes
    obtain ⟨name, heads⟩ := exists_heads unbroken closed terminator goes
    rcases terminator with opens | stops
    · rw [read_opening opens heads] at goes
      obtain rfl := Except.ok.inj goes
      exact @Reached.body blocks [] lexemes header [] declared keyword lexeme name opened isActor heads opens
        (.none .nil)
    · rw [read_stop stops heads] at goes
      obtain rfl := Except.ok.inj goes
      refine .outside fun follow => ?_
      have item : Items follow (keyword :: header ++ [lexeme]) [⟨name, keyword.line, false, 0⟩] :=
        .forward isActor stops heads .nil
      have next : Grammar.next follow (keyword :: header ++ [lexeme]) = some .actor := by
        simp [Grammar.next, isActor]
      rw [← next] at opened
      simpa using opened.append item
  · have inside : Grammar.openParens (header.map Located.value) = 0 →
        lexeme.value ≠ .openBrace ∧ lexeme.value ≠ .semicolon :=
      fun closed => ⟨fun opens => ends ⟨closed, .inl opens⟩, fun stops => ends ⟨closed, .inr stops⟩⟩
    have further : Unbroken ((header ++ [lexeme]).map Located.value) := by
      simpa using unbroken.append_singleton inside
    have gathered := read_header blocks declared none keyword.line (header.map Located.value).reverse
      (by simpa using inside)
    rw [List.reverse_reverse] at gathered
    rw [gathered] at goes
    obtain rfl := Except.ok.inj goes
    simpa using Reached.header opened isActor further

/-- A token of the body of an actor. -/
theorem reached_read_body {inside : List Block} {header body : List Lexeme} {keyword opening : Lexeme}
    {name : String} (opened : Opened (some .actor) blocks lexemes declared) (isActor : keyword.value = .actor)
    (heads : Heads (header.map Located.value) name) (opens : opening.value = .openBrace)
    (openedInside : OpenedInside inside body)
    (goes : (⟨inside ++ ⟨opening.line, some declared.length⟩ :: blocks,
      (declared ++ [(⟨name, keyword.line, true, Grammar.waits body⟩ : Declaration)]).toArray,
      some declared.length, .outside⟩ : State).read lexeme = .ok behind) :
    Reached behind (lexemes ++ keyword :: header ++ opening :: body ++ [lexeme]) := by
  have regrouped : lexemes ++ keyword :: header ++ opening :: body ++ [lexeme] =
      lexemes ++ keyword :: header ++ opening :: (body ++ [lexeme]) := by simp
  by_cases nested : lexeme.value = .actor
  · rw [read_resting (Mode.resting_outside _), nested] at goes
    cases goes
  by_cases opensBlock : lexeme.value = .openBrace
  · rw [read_block (Mode.resting_outside _) opensBlock] at goes
    obtain rfl := Except.ok.inj goes
    have further := Reached.body opened isActor heads opens (openedInside.block opensBlock .nil)
    rw [waits_append_brace body (by simp [Grammar.isStructural, opensBlock])] at further
    rw [regrouped]
    exact further
  by_cases closes : lexeme.value = .closeBrace
  · cases inside with
    | nil =>
      rw [List.nil_append, read_closing (Mode.resting_outside _) closes] at goes
      obtain rfl := Except.ok.inj goes
      cases openedInside with
      | none derived =>
        refine .outside fun follow => ?_
        have item : Items follow (keyword :: header ++ opening :: body ++ [lexeme])
            [⟨name, keyword.line, true, Grammar.waits body⟩] :=
          .actor isActor opens closes heads derived .nil
        have next : Grammar.next follow (keyword :: header ++ opening :: body ++ [lexeme]) = some .actor := by
          simp [Grammar.next, isActor]
        rw [← next] at opened
        simpa using opened.append item
    | cons block inside =>
      rw [List.cons_append, read_closing (Mode.resting_outside _) closes] at goes
      obtain rfl := Except.ok.inj goes
      obtain ⟨plain, further⟩ := openedInside.close closes
      have reached := Reached.body opened isActor heads opens further
      rw [waits_append_brace body (by simp [Grammar.isStructural, closes])] at reached
      rw [regrouped, plain]
      exact reached
  have plain : Grammar.isStructural lexeme.value = false := by
    simp [Grammar.isStructural, nested, opensBlock, closes]
  rw [read_plain_inside plain] at goes
  obtain rfl := Except.ok.inj goes
  have reached := Reached.body opened isActor heads opens (openedInside.append (.other plain .nil))
  rw [waits_append_singleton] at reached
  rw [regrouped]
  exact reached

end

/-- One token takes a state that the scan reaches to one that it reaches. -/
theorem reached_read {state behind : State} {lexemes : List Lexeme} {lexeme : Lexeme}
    (reached : Reached state lexemes) (goes : state.read lexeme = .ok behind) :
    Reached behind (lexemes ++ [lexeme]) := by
  cases reached with
  | outside opened => exact reached_read_outside (Mode.resting_outside _) (opened _) goes
  | @behindWait blocks _ declared line opened =>
    by_cases call : lexeme.value = .openParen
    · have refused : (⟨blocks, declared.toArray, none, .behindWait line⟩ : State).read lexeme =
          .error ⟨line, .waitOutsideActor⟩ := by simp [read, step, call]
      rw [refused] at goes
      cases goes
    · have free : some lexeme.value ≠ some .openParen := fun same => call (Option.some.inj same)
      exact reached_read_outside (.inr ⟨line, rfl, free⟩) (opened _ free) goes
  | header opened isActor unbroken => exact reached_read_header opened isActor unbroken goes
  | body opened isActor heads opens inside => exact reached_read_body opened isActor heads opens inside goes

/-- The scan of some tokens takes a state that the scan reaches to one that it reaches. -/
theorem reached_run {state behind : State} {before lexemes : List Lexeme} (reached : Reached state before)
    (goes : state.run lexemes = .ok behind) : Reached behind (before ++ lexemes) := by
  induction lexemes generalizing state before with
  | nil =>
    obtain rfl := Except.ok.inj goes
    simpa using reached
  | cons lexeme rest ih =>
    cases first : state.read lexeme with
    | error fault =>
      have stuck : state.run (lexeme :: rest) = .error fault := by
        show (state.read lexeme).bind (fun next => next.run rest) = .error fault
        rw [first]
        rfl
      rw [stuck] at goes
      cases goes
    | ok next =>
      rw [run_cons_of_ok first] at goes
      simpa using ih (reached_read reached first) goes

theorem reached_of_run {state : State} {lexemes : List Lexeme} (goes : initial.run lexemes = .ok state) :
    Reached state lexemes :=
  reached_run reached_initial goes

/-- Where a scan ends without a fault, what was read is items throughout. -/
theorem items_of_finish {state : State} {lexemes : List Lexeme} {declared : List Declaration}
    (reached : Reached state lexemes) (ends : state.finish = .ok declared) : Items none lexemes declared := by
  cases reached with
  | @outside blocks _ _ opened =>
    cases blocks with
    | nil =>
      obtain rfl := Except.ok.inj ends
      cases opened none with
      | none derived => exact derived
    | cons => cases ends
  | @behindWait blocks _ _ _ opened =>
    cases blocks with
    | nil =>
      obtain rfl := Except.ok.inj ends
      cases opened none (by simp) with
      | none derived => exact derived
    | cons => cases ends
  | header => cases ends
  | @body _ inside => cases inside <;> cases ends

end State

end Actor

end ActorSurface
