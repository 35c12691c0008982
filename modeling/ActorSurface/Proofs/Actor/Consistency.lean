import ActorSurface.Proofs.Actor.Modes
import ActorSurface.Proofs.Token.Items

/-!
What the parts of a state have to do with each other. In every state that the scan reaches at most one open block is
the body of an actor, the position that the state holds is the one of that body's declaration, and this is the last
declaration (`Consistent`). It follows from what the scan has read by then (`consistent_of_run`). One step leaves every
declaration as it is but the one whose body is open, which may get one more wait (`keeps_of_step`). So no actor has
waited more often than tokens have been read, and what the scan answers with stands in the order of the source.
-/

namespace ActorSurface

namespace Actor

open Token (Item Kind)

/-- How declarations go on where the body of the one at `current` is open: no other one changes, that one gets one more
    wait at most, and the new ones have not waited. -/
structure Keeps (current : Option Nat) (before after : Array Declaration) : Prop where
  size : before.size ≤ after.size
  others : ∀ position, position < before.size → current ≠ some position → after[position]? = before[position]?
  own : ∀ position declaration, current = some position → before[position]? = some declaration →
    after[position]? = some declaration ∨ after[position]? = some declaration.addWait
  added : ∀ position declaration, before.size ≤ position → after[position]? = some declaration →
    declaration.waits = 0

theorem Keeps.refl (current : Option Nat) (declarations : Array Declaration) :
    Keeps current declarations declarations := by
  refine ⟨Nat.le_refl _, fun _ _ _ => rfl, fun _ _ _ here => .inl here, fun position declaration behind here => ?_⟩
  rw [Array.getElem?_eq_none behind] at here
  cases here

theorem Keeps.push (current : Option Nat) (declarations : Array Declaration) {declaration : Declaration}
    (fresh : declaration.waits = 0) : Keeps current declarations (declarations.push declaration) := by
  have earlier : ∀ position, position < declarations.size →
      (declarations.push declaration)[position]? = declarations[position]? := fun position inside => by
    rw [Array.getElem?_push, if_neg (Nat.ne_of_lt inside)]
  refine ⟨by simp, fun position inside _ => earlier position inside, fun position other _ here => .inl ?_,
    fun position other behind here => ?_⟩
  · rw [earlier position (Array.getElem?_eq_some_iff.mp here).1, here]
  · rw [Array.getElem?_push] at here
    split at here
    next => exact Option.some.inj here ▸ fresh
    next =>
      rw [Array.getElem?_eq_none behind] at here
      cases here

theorem Keeps.addWait (position : Nat) (declarations : Array Declaration) :
    Keeps (some position) declarations (declarations.modify position Declaration.addWait) := by
  refine ⟨by simp, fun other _ different => ?_, fun other declaration same here => .inr ?_,
    fun other declaration behind here => ?_⟩
  · rw [Array.getElem?_modify, if_neg fun same => different (congrArg some same)]
  · rw [Array.getElem?_modify, if_pos (Option.some.inj same), here]
    rfl
  · rw [Array.getElem?_eq_none (by simpa using behind)] at here
    cases here

/-- Declarations that go on have one more wait each at most. -/
theorem Keeps.waits_le {current : Option Nat} {before after : Array Declaration} {most : Nat}
    (keeps : Keeps current before after) (bound : ∀ declaration ∈ before, declaration.waits ≤ most) :
    ∀ declaration ∈ after, declaration.waits ≤ most + 1 := by
  intro declaration listed
  obtain ⟨position, inside, rfl⟩ := Array.mem_iff_getElem.mp listed
  have here := Array.getElem?_eq_getElem inside
  by_cases earlier : position < before.size
  · have bounded := bound _ (Array.getElem_mem earlier)
    by_cases own : current = some position
    · rcases keeps.own position _ own (Array.getElem?_eq_getElem earlier) with same | counted
      · rw [here] at same
        rw [Option.some.inj same]
        omega
      · rw [here] at counted
        rw [Option.some.inj counted, Declaration.addWait]
        exact Nat.succ_le_succ bounded
    · have same := keeps.others position earlier own
      rw [here, Array.getElem?_eq_getElem earlier] at same
      rw [Option.some.inj same]
      omega
  · rw [keeps.added position _ (Nat.le_of_not_lt earlier) here]
    omega

namespace State

open Grammar (Items)

/-- What the parts of a state have to do with each other. -/
structure Consistent (state : State) : Prop where
  /-- At most one open block is the body of an actor. -/
  bodies : state.blocks.countP (·.actor.isSome) ≤ 1
  /-- The state holds the position of an actor just where an open block is its body. -/
  current_iff : ∀ position, state.current = some position ↔ ∃ block ∈ state.blocks, block.actor = some position
  /-- That actor is the last one declared, and has a body. -/
  last : ∀ position, state.current = some position → position + 1 = state.declarations.size ∧
    ∃ declaration, state.declarations[position]? = some declaration ∧ declaration.hasBody = true
  /-- No open block begins above one around it. -/
  blocks_pairwise : state.blocks.Pairwise fun inner outer => outer.line ≤ inner.line
  /-- The declarations stand in the order of their lines. -/
  declarations_pairwise : state.declarations.toList.Pairwise fun earlier later => earlier.line ≤ later.line

/-- Where the scan stands plays no part in it. -/
theorem Consistent.with_mode {state : State} (consistent : state.Consistent) (mode : Mode) :
    ({ state with mode } : State).Consistent :=
  ⟨consistent.bodies, consistent.current_iff, consistent.last, consistent.blocks_pairwise,
    consistent.declarations_pairwise⟩

/-! ### What has been read -/

/-- Items declare actors on lines of theirs, in order. -/
theorem declared_sublist {follow : Option Kind} {lexemes : List Lexeme} {declared : List Declaration}
    (derived : Items follow lexemes declared) :
    (declared.map Declaration.line).Sublist (lexemes.map Located.line) := by
  rw [← derived.lines]
  exact (List.filter_sublist.trans (Grammar.bareThrough_sublist none lexemes)).map _

section

variable {follow : Option Kind} {blocks : List Block} {lexemes body : List Lexeme} {declared : List Declaration}

theorem Opened.plain (opened : Opened follow blocks lexemes declared) : ∀ block ∈ blocks, block.actor = Option.none := by
  induction opened with
  | none => simp
  | block _ _ _ ih => simpa using ih

theorem OpenedInside.plain (opened : OpenedInside blocks body) : ∀ block ∈ blocks, block.actor = Option.none := by
  induction opened with
  | none => simp
  | block _ _ _ ih => simpa using ih

theorem Opened.declared_sublist (opened : Opened follow blocks lexemes declared) :
    (declared.map Declaration.line).Sublist (lexemes.map Located.line) := by
  induction opened with
  | none derived => exact State.declared_sublist derived
  | block _ _ derived ih => simpa using ih.append ((State.declared_sublist derived).cons _)

/-- Blocks are opened on lines of what was read, the outermost first. -/
theorem Opened.blocks_sublist (opened : Opened follow blocks lexemes declared) :
    (blocks.reverse.map Block.line).Sublist (lexemes.map Located.line) := by
  induction opened with
  | none => simp
  | block _ _ _ ih => simpa using ih.append (List.singleton_sublist.mpr List.mem_cons_self)

theorem OpenedInside.blocks_sublist (opened : OpenedInside blocks body) :
    (blocks.reverse.map Block.line).Sublist (body.map Located.line) := by
  induction opened with
  | none => simp
  | block _ _ _ ih => simpa using ih.append (List.singleton_sublist.mpr List.mem_cons_self)

theorem blocks_pairwise_of_sublist (sorted : (lexemes.map Located.line).Pairwise (· ≤ ·))
    (listed : (blocks.reverse.map Block.line).Sublist (lexemes.map Located.line)) :
    blocks.Pairwise fun inner outer => outer.line ≤ inner.line :=
  List.pairwise_reverse.mp (List.pairwise_map.mp (sorted.sublist listed))

theorem bodies_eq_zero (plain : ∀ block ∈ blocks, block.actor = Option.none) :
    blocks.countP (·.actor.isSome) = 0 :=
  List.countP_eq_zero.mpr fun block here => by simp [plain block here]

/-- Outside of bodies no open block is one. -/
theorem consistent_outside {mode : Mode} (sorted : (lexemes.map Located.line).Pairwise (· ≤ ·))
    (plain : ∀ block ∈ blocks, block.actor = Option.none)
    (opened : (blocks.reverse.map Block.line).Sublist (lexemes.map Located.line))
    (listed : (declared.map Declaration.line).Sublist (lexemes.map Located.line)) :
    Consistent ⟨blocks, declared.toArray, Option.none, mode⟩ where
  bodies := by simp [bodies_eq_zero plain]
  current_iff position := by
    constructor
    · intro held
      cases held
    · rintro ⟨block, here, actor⟩
      rw [plain block here] at actor
      cases actor
  last position held := by cases held
  blocks_pairwise := blocks_pairwise_of_sublist sorted opened
  declarations_pairwise := List.pairwise_map.mp (sorted.sublist listed)

end

/-- What the scan holds is consistent, since it is what the tokens before tell. -/
theorem Reached.consistent {state : State} {lexemes : List Lexeme} (reached : Reached state lexemes)
    (sorted : (lexemes.map Located.line).Pairwise (· ≤ ·)) : state.Consistent := by
  cases reached with
  | outside opened =>
    have here := opened none
    exact consistent_outside sorted here.plain here.blocks_sublist here.declared_sublist
  | behindWait opened =>
    have here := opened none (by simp)
    exact consistent_outside sorted here.plain here.blocks_sublist here.declared_sublist
  | header opened =>
    rw [List.map_append] at sorted
    have before := (List.pairwise_append.mp sorted).1
    exact consistent_outside before opened.plain opened.blocks_sublist opened.declared_sublist
  | @body blocks inside lexemes header body declared keyword opening name opened isActor heads opens openedInside =>
    have inner := openedInside.plain
    have outer := opened.plain
    refine ⟨?_, fun position => ?_, fun position held => ?_, blocks_pairwise_of_sublist sorted ?_,
      List.pairwise_map.mp (sorted.sublist ?_)⟩
    · rw [List.countP_append, List.countP_cons, bodies_eq_zero inner, bodies_eq_zero outer]
      simp
    · constructor
      · rintro ⟨⟩
        exact ⟨⟨opening.line, some declared.length⟩, by simp, rfl⟩
      · rintro ⟨block, here, actor⟩
        rcases List.mem_append.mp here with inside | around
        · rw [inner block inside] at actor
          cases actor
        rcases List.mem_cons.mp around with rfl | outside
        · exact actor
        · rw [outer block outside] at actor
          cases actor
    · obtain rfl := Option.some.inj held
      refine ⟨by simp, ⟨name, keyword.line, true, Grammar.waits body⟩, ?_, rfl⟩
      simp
    · have before := opened.blocks_sublist.append (List.nil_sublist ((keyword :: header).map Located.line))
      simpa using before.append (openedInside.blocks_sublist.cons_cons opening.line)
    · have behind := List.nil_sublist ((header ++ opening :: body).map Located.line)
      simpa using opened.declared_sublist.append (behind.cons_cons keyword.line)

/-- In every state that the scan reaches on a front of the items of a text, its parts fit together. -/
theorem consistent_of_run {text : List Char} {front : List Item} {state : State} (early : front <+: Token.items text)
    (goes : front.foldlM step initial = .ok state) : state.Consistent := by
  obtain ⟨lexemes, rfl⟩ := lexemes_of_foldlM goes
  rw [foldlM_items] at goes
  have onLines := List.pairwise_map.mp ((Token.items_pairwise text).sublist early.sublist)
  exact (reached_of_run goes).consistent (List.pairwise_map.mpr onLines)

/-! ### Steps -/

theorem Goes.keeps {state next : State} {line : Nat} {kind : Kind} (goes : Goes state line kind next) :
    Keeps state.current state.declarations next.declarations := by
  cases goes with
  | counted _ current =>
    rw [current]
    exact .addWait _ _
  | heading => exact .refl _ _
  | opening => exact .refl _ _
  | closing => exact .refl _ _
  | waits => exact .refl _ _
  | other => exact .refl _ _

theorem keeps_of_declare {state next : State} {line stop : Nat} {header : Header} {hasBody : Bool}
    (ends : state.declare line header hasBody stop = .ok next) :
    Keeps state.current state.declarations next.declarations := by
  unfold declare at ends
  repeat' split at ends
  all_goals cases ends
  all_goals exact .push _ _ rfl

/-- One step changes no declaration but that of the actor whose body is open. -/
theorem keeps_of_step {state next : State} {item : Item} (ends : state.step item = .ok next) :
    Keeps state.current state.declarations next.declarations := by
  obtain ⟨line, value⟩ := item
  cases value with
  | error fault => cases ends
  | ok kind =>
    have elsewhere : Mode.Outside state.mode → Keeps state.current state.declarations next.declarations :=
      fun outside => (@goes_of_read state next ⟨line, kind⟩ outside ends).keeps
    cases mode : state.mode with
    | outside => exact elsewhere (by simp [Mode.Outside, mode])
    | behindWait place => exact elsewhere (by simp [Mode.Outside, mode])
    | header start parens kinds =>
      simp only [step, mode, inHeader] at ends
      split at ends
      next => exact keeps_of_declare ends
      split at ends
      next => exact keeps_of_declare ends
      next =>
        obtain rfl := Except.ok.inj ends
        exact .refl _ _

/-- No actor has waited more often than there are tokens that have been read. -/
theorem waits_le_of_run {lexemes : List Lexeme} {state : State} (goes : initial.run lexemes = .ok state) :
    ∀ declaration ∈ state.declarations, declaration.waits ≤ lexemes.length := by
  induction lexemes using List.reverseRecOn generalizing state with
  | nil =>
    obtain rfl := Except.ok.inj goes
    simp [initial]
  | append_singleton front last ih =>
    obtain ⟨before, early, read⟩ := exists_read_of_append_singleton goes
    simpa using (keeps_of_step read).waits_le (ih early)

end State

theorem State.finish_eq_ok {state : State} {declarations : List Declaration} (ends : state.finish = .ok declarations) :
    state.declarations.toList = declarations := by
  unfold finish at ends
  split at ends
  next => cases ends
  next => cases ends
  next => exact Except.ok.inj ends

/-- What the scan answers with stands in the order of the source. -/
theorem declarations_pairwise_of_scan {source : String} {declarations : List Declaration}
    (accepted : scan source = .ok declarations) :
    declarations.Pairwise fun earlier later => earlier.line ≤ later.line := by
  cases goes : (Token.items source.toList).foldlM State.step State.initial with
  | error fault =>
    rw [scan, scanItems, goes] at accepted
    cases accepted
  | ok state =>
    rw [scan, scanItems, goes] at accepted
    rw [← State.finish_eq_ok accepted]
    exact (State.consistent_of_run (List.prefix_refl _) goes).declarations_pairwise

end Actor

end ActorSurface
