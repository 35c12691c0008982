import ActorSurface.Proofs.Actor.Grammar

/-!
The scan follows the grammar. On a derivation of items, started outside of every actor, the scan goes
through and adds exactly the actors that the derivation lists (`run_items`); a body only counts its waits
(`run_body`), and a header only gathers its kinds (`run_header`).
-/

namespace ActorSurface

namespace Actor

open Token (Kind)

namespace State

/-- The scan of one token. -/
def read (state : State) (lexeme : Lexeme) : Verdict State :=
  state.step ⟨lexeme.line, .ok lexeme.value⟩

/-- The scan of some tokens, one after the other. -/
def run (state : State) (lexemes : List Lexeme) : Verdict State :=
  lexemes.foldlM read state

@[simp]
theorem run_nil (state : State) : state.run [] = .ok state := rfl

theorem run_cons_of_ok {state behind : State} {lexeme : Lexeme} (first : state.read lexeme = .ok behind)
    (rest : List Lexeme) : state.run (lexeme :: rest) = behind.run rest := by
  show (state.read lexeme).bind (fun next => next.run rest) = behind.run rest
  rw [first]
  rfl

theorem run_append_of_ok {state behind : State} {one : List Lexeme} (first : state.run one = .ok behind)
    (other : List Lexeme) : state.run (one ++ other) = behind.run other := by
  have split : state.run (one ++ other) = (state.run one).bind fun next => next.run other := List.foldlM_append
  rw [split, first]
  rfl

/-- Where the scan stands outside of headers, before a token of kind `follow` or before the end: a wait
    that it has just passed is no call. -/
def Mode.Resting (mode : Mode) (follow : Option Kind) : Prop :=
  mode = .outside ∨ ∃ line, mode = .behindWait line ∧ follow ≠ some .openParen

theorem Mode.resting_outside (follow : Option Kind) : Mode.Resting .outside follow := .inl rfl

/-- At rest a token is read by the rules outside of headers. -/
theorem step_of_resting {state : State} {line : Nat} {kind : Kind} (resting : Mode.Resting state.mode (some kind)) :
    state.step ⟨line, .ok kind⟩ = ({ state with mode := .outside } : State).outsideHeader line kind := by
  obtain ⟨blocks, declarations, current, mode⟩ := state
  rcases resting with outside | ⟨place, waits, free⟩
  · cases outside
    rfl
  · cases waits
    have notParen : kind ≠ .openParen := fun same => free (congrArg some same)
    simp only [step, notParen, if_false]
    rfl

/-- At rest the end of the text is the end outside of headers. -/
theorem finish_of_resting {state : State} {follow : Option Kind} (resting : Mode.Resting state.mode follow) :
    state.finish = ({ state with mode := .outside } : State).finish := by
  obtain ⟨blocks, declarations, current, mode⟩ := state
  rcases resting with outside | ⟨place, waits, -⟩
  · cases outside
    rfl
  · cases waits
    cases blocks <;> rfl

variable {blocks : List Block} {declared : List Declaration} {current : Option Nat} {mode : Mode}

theorem read_resting {lexeme : Lexeme} (resting : Mode.Resting mode (some lexeme.value)) :
    (⟨blocks, declared.toArray, current, mode⟩ : State).read lexeme =
      (⟨blocks, declared.toArray, current, mode⟩ : State).outsideHeader lexeme.line lexeme.value :=
  step_of_resting resting

/-! ### Blocks -/

/-- Outside of headers, a brace opens a block. -/
theorem read_block {lexeme : Lexeme} (resting : Mode.Resting mode (some lexeme.value))
    (opens : lexeme.value = .openBrace) :
    (⟨blocks, declared.toArray, current, mode⟩ : State).read lexeme =
      .ok ⟨⟨lexeme.line, none⟩ :: blocks, declared.toArray, current, .outside⟩ := by
  rw [read_resting resting, opens]
  rfl

/-- A closing brace closes the innermost block, and the body of an actor if it is one. -/
theorem read_closing {lexeme : Lexeme} {block : Block} (resting : Mode.Resting mode (some lexeme.value))
    (closes : lexeme.value = .closeBrace) :
    (⟨block :: blocks, declared.toArray, current, mode⟩ : State).read lexeme =
      .ok ⟨blocks, declared.toArray, if block.actor.isSome then none else current, .outside⟩ := by
  rw [read_resting resting, closes]
  rfl

/-! ### Headers -/

theorem read_header (blocks : List Block) (declared : List Declaration) (current : Option Nat) (line : Nat)
    (kinds : List Kind) {lexeme : Lexeme}
    (inside : Grammar.openParens kinds.reverse = 0 → lexeme.value ≠ .openBrace ∧ lexeme.value ≠ .semicolon) :
    (⟨blocks, declared.toArray, current, .header line (Grammar.openParens kinds.reverse) kinds⟩ : State).read
        lexeme =
      .ok ⟨blocks, declared.toArray, current,
        .header line (Grammar.openParens (lexeme.value :: kinds).reverse) (lexeme.value :: kinds)⟩ := by
  have notBrace : ¬ (Grammar.openParens kinds.reverse = 0 ∧ lexeme.value = .openBrace) :=
    fun ⟨closed, brace⟩ => (inside closed).1 brace
  have notStop : ¬ (Grammar.openParens kinds.reverse = 0 ∧ lexeme.value = .semicolon) :=
    fun ⟨closed, stop⟩ => (inside closed).2 stop
  simp [read, step, inHeader, notBrace, notStop, Grammar.openParens_append_singleton]

/-- A header that nothing breaks is gathered kind by kind. -/
theorem run_header (blocks : List Block) (declared : List Declaration) (current : Option Nat) (line : Nat)
    (kinds : List Kind) (header : List Lexeme)
    (unbroken : Grammar.Unbroken (kinds.reverse ++ header.map Located.value)) :
    (⟨blocks, declared.toArray, current, .header line (Grammar.openParens kinds.reverse) kinds⟩ : State).run
        header =
      .ok ⟨blocks, declared.toArray, current,
        .header line (Grammar.openParens (kinds.reverse ++ header.map Located.value))
          ((header.map Located.value).reverse ++ kinds)⟩ := by
  induction header generalizing kinds with
  | nil => simp
  | cons lexeme rest ih =>
    have first := read_header blocks declared current line kinds
      (unbroken kinds.reverse lexeme.value (rest.map Located.value) rfl)
    have onward := ih (lexeme.value :: kinds) (by simpa using unbroken)
    rw [run_cons_of_ok first, onward]
    simp

/-- A whole header, from its keyword on. -/
theorem run_keyword_header {keyword : Lexeme} {header : List Lexeme} {name : String}
    (resting : Mode.Resting mode (some keyword.value)) (isActor : keyword.value = .actor)
    (heads : Grammar.Heads (header.map Located.value) name) :
    (⟨blocks, declared.toArray, none, mode⟩ : State).run (keyword :: header) =
      .ok ⟨blocks, declared.toArray, none, .header keyword.line 0 (header.map Located.value).reverse⟩ := by
  have gathered := run_header blocks declared none keyword.line [] header (by simpa using heads.unbroken)
  have closed : Grammar.openParens (header.map Located.value) = 0 := heads.closed
  have started : (⟨blocks, declared.toArray, none, mode⟩ : State).read keyword =
      .ok ⟨blocks, declared.toArray, none, .header keyword.line 0 []⟩ := by
    rw [read_resting resting, isActor]
    rfl
  rw [run_cons_of_ok started]
  rw [List.reverse_nil, List.nil_append, List.append_nil, closed] at gathered
  exact gathered

/-- A semicolon outside of parentheses ends a forward declaration. -/
theorem read_stop {line : Nat} {header : Header} {name : String} {lexeme : Lexeme}
    (stops : lexeme.value = .semicolon) (heads : Grammar.Heads header name) :
    (⟨blocks, declared.toArray, none, .header line 0 header.reverse⟩ : State).read lexeme =
      .ok ⟨blocks, (declared ++ [(⟨name, line, false, 0⟩ : Declaration)]).toArray, none, .outside⟩ := by
  simp [read, step, inHeader, declare, stops, heads.returns, heads.named]

/-- A brace outside of parentheses opens the body of the actor that a header declares. -/
theorem read_opening {line : Nat} {header : Header} {name : String} {lexeme : Lexeme}
    (opens : lexeme.value = .openBrace) (heads : Grammar.Heads header name) :
    (⟨blocks, declared.toArray, none, .header line 0 header.reverse⟩ : State).read lexeme =
      .ok ⟨⟨lexeme.line, some declared.length⟩ :: blocks,
        (declared ++ [(⟨name, line, true, 0⟩ : Declaration)]).toArray, some declared.length, .outside⟩ := by
  simp [read, step, inHeader, declare, opens, heads.returns, heads.named]

/-! ### Bodies -/

theorem modify_last (declared : List Declaration) (last : Declaration) :
    (declared ++ [last]).modify declared.length Declaration.addWait = declared ++ [last.addWait] := by
  induction declared with
  | nil => rfl
  | cons _ _ ih => simpa using ih

/-- A token of a body that is no brace: a wait is counted, all else is passed over. -/
theorem read_plain_inside {last : Declaration} {lexeme : Lexeme}
    (plain : Grammar.isStructural lexeme.value = false) :
    (⟨blocks, (declared ++ [last]).toArray, some declared.length, .outside⟩ : State).read lexeme =
      .ok ⟨blocks, (declared ++ [{ last with waits := last.waits + Grammar.waits [lexeme] }]).toArray,
        some declared.length, .outside⟩ := by
  rw [read_resting (Mode.resting_outside _)]
  obtain ⟨line, kind⟩ := lexeme
  cases kind <;>
    simp_all [Grammar.isStructural, Grammar.waits, Grammar.isWait, outsideHeader, waiting, modify_last,
      Declaration.addWait]

theorem run_body {body : List Lexeme} (derived : Grammar.Body body) (blocks : List Block)
    (declared : List Declaration) (last : Declaration) :
    (⟨blocks, (declared ++ [last]).toArray, some declared.length, .outside⟩ : State).run body =
      .ok ⟨blocks, (declared ++ [{ last with waits := last.waits + Grammar.waits body }]).toArray,
        some declared.length, .outside⟩ := by
  induction derived generalizing blocks last with
  | nil => simp [Grammar.waits]
  | @block opening closing inner rest opens closes _ _ insideIh restIh =>
    have inside := insideIh (⟨opening.line, none⟩ :: blocks) last
    have after := restIh blocks { last with waits := last.waits + Grammar.waits inner }
    have counted : Grammar.waits (opening :: inner ++ closing :: rest) = Grammar.waits inner + Grammar.waits rest := by
      simp [Grammar.waits, Grammar.isWait, opens, closes]
    rw [counted, List.cons_append, run_cons_of_ok (read_block (Mode.resting_outside _) opens), run_append_of_ok inside,
      run_cons_of_ok (read_closing (Mode.resting_outside _) closes)]
    simpa [Nat.add_assoc] using after
  | @other lexeme rest plain _ ih =>
    have counted : Grammar.waits (lexeme :: rest) = Grammar.waits [lexeme] + Grammar.waits rest := by
      simp [Grammar.waits, List.countP_cons, Nat.add_comm]
    rw [run_cons_of_ok (read_plain_inside plain), ih]
    simp [counted, Nat.add_assoc]

/-! ### Items -/

/-- Outside of actors, a token without structure is passed over. -/
theorem read_plain_outside {lexeme : Lexeme} (resting : Mode.Resting mode (some lexeme.value))
    (plain : Grammar.isStructural lexeme.value = false) (notWait : Grammar.isWait lexeme.value = false) :
    (⟨blocks, declared.toArray, none, mode⟩ : State).read lexeme =
      .ok ⟨blocks, declared.toArray, none, .outside⟩ := by
  rw [read_resting resting]
  obtain ⟨line, kind⟩ := lexeme
  cases kind <;> simp_all [Grammar.isStructural, Grammar.isWait, outsideHeader]

/-- Outside of actors, the token behind a wait decides about it. -/
theorem read_wait_outside {lexeme : Lexeme} (resting : Mode.Resting mode (some lexeme.value))
    (waits : Grammar.isWait lexeme.value = true) :
    (⟨blocks, declared.toArray, none, mode⟩ : State).read lexeme =
      .ok ⟨blocks, declared.toArray, none, .behindWait lexeme.line⟩ := by
  rw [read_resting resting]
  obtain ⟨line, kind⟩ := lexeme
  cases kind <;> simp_all [Grammar.isWait, outsideHeader, waiting]

theorem run_items {follow : Option Kind} {lexemes : List Lexeme} {more : List Declaration}
    (derived : Grammar.Items follow lexemes more) (blocks : List Block) (declared : List Declaration)
    (mode : Mode) (resting : Mode.Resting mode (Grammar.next follow lexemes)) :
    ∃ behind, Mode.Resting behind follow ∧
      (⟨blocks, declared.toArray, none, mode⟩ : State).run lexemes =
        .ok ⟨blocks, (declared ++ more).toArray, none, behind⟩ := by
  induction derived generalizing blocks declared mode with
  | nil => exact ⟨mode, resting, by simp⟩
  | @block follow opening closing inner rest ds others opens closes _ _ insideIh restIh =>
    obtain ⟨insideMode, insideResting, inside⟩ :=
      insideIh (⟨opening.line, none⟩ :: blocks) declared .outside (Mode.resting_outside _)
    obtain ⟨behind, behindResting, after⟩ := restIh blocks (declared ++ ds) .outside (Mode.resting_outside _)
    refine ⟨behind, behindResting, ?_⟩
    rw [← closes] at insideResting
    rw [List.cons_append, run_cons_of_ok (read_block resting opens), run_append_of_ok inside,
      run_cons_of_ok (read_closing insideResting closes)]
    simpa using after
  | @forward follow keyword stop header rest name others isActor stops heads _ ih =>
    obtain ⟨behind, behindResting, after⟩ :=
      ih blocks (declared ++ [⟨name, keyword.line, false, 0⟩]) .outside (Mode.resting_outside _)
    refine ⟨behind, behindResting, ?_⟩
    rw [run_append_of_ok (run_keyword_header resting isActor heads), run_cons_of_ok (read_stop stops heads), after]
    simp
  | @actor follow keyword opening closing header body rest name others isActor opens closes heads inside _ ih =>
    obtain ⟨behind, behindResting, after⟩ :=
      ih blocks (declared ++ [⟨name, keyword.line, true, Grammar.waits body⟩]) .outside (Mode.resting_outside _)
    refine ⟨behind, behindResting, ?_⟩
    rw [List.append_assoc, run_append_of_ok (run_keyword_header resting isActor heads), List.cons_append,
      run_cons_of_ok (read_opening opens heads), run_append_of_ok (run_body inside _ _ _),
      run_cons_of_ok (read_closing (Mode.resting_outside _) closes)]
    simpa using after
  | @wait follow lexeme rest others waits free _ ih =>
    obtain ⟨behind, behindResting, after⟩ :=
      ih blocks declared (.behindWait lexeme.line) (.inr ⟨lexeme.line, rfl, free⟩)
    exact ⟨behind, behindResting, by rw [run_cons_of_ok (read_wait_outside resting waits), after]⟩
  | @other follow lexeme rest others plain notWait _ ih =>
    obtain ⟨behind, behindResting, after⟩ := ih blocks declared .outside (Mode.resting_outside _)
    exact ⟨behind, behindResting,
      by rw [run_cons_of_ok (read_plain_outside resting plain notWait), after]⟩

end State

end Actor

end ActorSurface
