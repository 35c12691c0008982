import ActorSurface.Actor.Scan
import Mathlib.Tactic.SplitIfs

/-!
Lines carry no meaning to the scan. It never compares two of them, so with every line of its items moved in one and the same
way it does what it does without, and its declarations and faults are moved likewise. That holds too behind declarations
that are already found: one lemma for each function of the scan (`step_moved`), and an induction over the items
(`foldlM_moved`).
-/

namespace ActorSurface

/-- The value, with its line moved. -/
def Located.moved {α : Type} (move : Nat → Nat) (located : Located α) : Located α :=
  { located with line := move located.line }

namespace Actor

open Token (Item Kind)

/-- The declaration, with its line moved. -/
def Declaration.moved (move : Nat → Nat) (declaration : Declaration) : Declaration :=
  { declaration with line := move declaration.line }

/-- The block, with its line moved, behind some declarations. -/
def Block.moved (declared : List Declaration) (move : Nat → Nat) (block : Block) : Block :=
  ⟨move block.line, block.actor.map (declared.length + ·)⟩

/-- The mode, with its line moved. -/
def Mode.moved (move : Nat → Nat) : Mode → Mode
  | .outside => .outside
  | .header line parens kinds => .header (move line) parens kinds
  | .behindWait line => .behindWait (move line)

/-- The state of a scan with its lines moved, where some declarations are already found. -/
def State.moved (declared : List Declaration) (move : Nat → Nat) (state : State) : State :=
  ⟨state.blocks.map (Block.moved declared move),
    (declared ++ state.declarations.toList.map (Declaration.moved move)).toArray,
    state.current.map (declared.length + ·), state.mode.moved move⟩

/-- The verdict of a part of the scan with its lines moved: a fault moves with its line. -/
def Verdict.moved {α β : Type} (move : Nat → Nat) (value : α → β) (verdict : Verdict α) : Verdict β :=
  (verdict.map value).mapError (Located.moved move)

namespace Verdict

variable {α β : Type}

@[simp]
theorem moved_ok (move : Nat → Nat) (value : α → β) (result : α) :
    Verdict.moved move value (.ok result) = .ok (value result) := rfl

@[simp]
theorem moved_error (move : Nat → Nat) (value : α → β) (fault : Located Fault) :
    Verdict.moved move value (.error fault) = .error (fault.moved move) := rfl

end Verdict

theorem modify_append {α : Type} (front behind : List α) (position : Nat) (change : α → α) :
    (front ++ behind).modify (front.length + position) change = front ++ behind.modify position change := by
  induction front with
  | nil => simp
  | cons first front ih => simpa [Nat.add_right_comm] using ih

theorem map_moved_modify (move : Nat → Nat) (declarations : List Declaration) (position : Nat) :
    (declarations.modify position Declaration.addWait).map (Declaration.moved move) =
      (declarations.map (Declaration.moved move)).modify position Declaration.addWait := by
  induction declarations generalizing position with
  | nil => cases position <;> simp
  | cons first rest ih =>
    cases position with
    | zero => simp [Declaration.addWait, Declaration.moved]
    | succ position => simp [ih]

namespace State

variable (declared : List Declaration) (move : Nat → Nat)

theorem waiting_moved (state : State) (line : Nat) :
    (state.moved declared move).waiting (move line) =
      (state.waiting line).moved move (State.moved declared move) := by
  obtain ⟨blocks, declarations, current, mode⟩ := state
  cases current with
  | none => rfl
  | some position =>
    have moved := map_moved_modify move declarations.toList position
    have counted := modify_append declared (declarations.toList.map (Declaration.moved move)) position Declaration.addWait
    simp [waiting, State.moved, Mode.moved, counted, moved]

theorem outsideHeader_moved (state : State) (line : Nat) (kind : Kind) :
    (state.moved declared move).outsideHeader (move line) kind =
      (state.outsideHeader line kind).moved move (State.moved declared move) := by
  cases kind with
  | actor => cases current : state.current <;> simp [outsideHeader, State.moved, Mode.moved, Located.moved, current]
  | closeBrace =>
    cases open' : state.blocks with
    | nil => simp [outsideHeader, State.moved, Located.moved, open']
    | cons block blocks =>
      obtain ⟨opened, actor⟩ := block
      cases actor <;> simp [outsideHeader, State.moved, Block.moved, Mode.moved, open']
  | wait => exact waiting_moved declared move state line
  | waitNext => exact waiting_moved declared move state line
  | _ => simp [outsideHeader, State.moved, Block.moved, Mode.moved]

theorem declare_moved (state : State) (line : Nat) (header : Header) (hasBody : Bool) (stop : Nat) :
    (state.moved declared move).declare (move line) header hasBody (move stop) =
      (state.declare line header hasBody stop).moved move (State.moved declared move) := by
  unfold declare
  split
  · cases header.name? with
    | none => rfl
    | some name => cases hasBody <;> simp [State.moved, Block.moved, Mode.moved, Declaration.moved]
  · rfl

theorem inHeader_moved (state : State) (start parens : Nat) (kinds : List Kind) (line : Nat) (kind : Kind) :
    (state.moved declared move).inHeader (move start) parens kinds (move line) kind =
      (state.inHeader start parens kinds line kind).moved move (State.moved declared move) := by
  unfold inHeader
  split_ifs with opens stops
  · exact declare_moved declared move state start kinds.reverse true line
  · exact declare_moved declared move state start kinds.reverse false line
  · simp [State.moved, Mode.moved]

/-- One step with the lines moved is the step, with its lines moved. -/
theorem step_moved (state : State) (item : Item) :
    (state.moved declared move).step (item.moved move) = (state.step item).moved move (State.moved declared move) := by
  obtain ⟨line, value⟩ := item
  cases value with
  | error fault => rfl
  | ok kind =>
    obtain ⟨blocks, declarations, current, mode⟩ := state
    cases mode with
    | outside => exact outsideHeader_moved declared move _ line kind
    | header start parens kinds => exact inHeader_moved declared move _ start parens kinds line kind
    | behindWait wait =>
      by_cases paren : kind = .openParen
      · simp [step, State.moved, Mode.moved, Located.moved, paren]
      · have outside := outsideHeader_moved declared move ⟨blocks, declarations, current, .behindWait wait⟩ line kind
        simpa [step, State.moved, Mode.moved, Located.moved, paren] using outside

/-- So is a run over items. -/
theorem foldlM_moved (state : State) (items : List Item) :
    (items.map (Located.moved move)).foldlM State.step (state.moved declared move) =
      Verdict.moved move (State.moved declared move) (items.foldlM State.step state) := by
  induction items generalizing state with
  | nil => rfl
  | cons item rest ih =>
    rw [List.map_cons, List.foldlM_cons, List.foldlM_cons, step_moved]
    cases first : state.step item with
    | error fault => rfl
    | ok next => exact ih next

/-- The verdict names the declarations already found, and its own ones with their lines moved. -/
theorem finish_moved (state : State) :
    (state.moved declared move).finish =
      state.finish.moved move fun others => declared ++ others.map (Declaration.moved move) := by
  obtain ⟨blocks, declarations, current, mode⟩ := state
  cases mode with
  | header line parens kinds => rfl
  | outside => cases blocks <;> simp [finish, State.moved, Block.moved, Mode.moved, Located.moved]
  | behindWait line => cases blocks <;> simp [finish, State.moved, Block.moved, Mode.moved, Located.moved]

/-- What is still to scan behind declarations, where nothing is open. -/
theorem scan_moved (items : List Item) :
    ((items.map (Located.moved move)).foldlM State.step ⟨[], declared.toArray, none, .outside⟩).bind State.finish =
      (scanItems items).moved move fun others => declared ++ others.map (Declaration.moved move) := by
  have start : (⟨[], declared.toArray, none, .outside⟩ : State) = State.initial.moved declared move := by
    simp [State.moved, State.initial, Mode.moved]
  rw [start, foldlM_moved]
  unfold scanItems
  cases items.foldlM State.step State.initial with
  | error fault => rfl
  | ok state => exact finish_moved declared move state

end State

/-! ### Outlines -/

/-- A verdict without its lines: of the declarations their names, whether they have a body, and how often they wait; or else
    the message of the fault. -/
def Verdict.outline (verdict : Verdict (List Declaration)) : Except String (List (String × Bool × Nat)) :=
  (verdict.map fun declared => declared.map fun declaration =>
    (declaration.name, declaration.hasBody, declaration.waits)).mapError fun fault => fault.value.message

theorem Verdict.outline_moved (move : Nat → Nat) (verdict : Verdict (List Declaration)) :
    (verdict.moved move fun others => others.map (Declaration.moved move)).outline = verdict.outline := by
  cases verdict with
  | error fault => rfl
  | ok declared => simp [outline, Verdict.moved, Except.map, Except.mapError, Declaration.moved]

/-- Items that differ in their lines alone have verdicts of one outline. -/
theorem outline_scanItems_congr {items others : List Item} (same : items.map Located.value = others.map Located.value) :
    (scanItems items).outline = (scanItems others).outline := by
  -- Both are what they are with every line moved to one place, where the items are the same.
  have erased : ∀ items : List Item,
      items.map (Located.moved fun _ => 0) = (items.map Located.value).map (Located.mk 0) := by
    intro items
    rw [List.map_map]
    rfl
  have outlines : ∀ items : List Item, (scanItems items).outline =
      (scanItems (items.map (Located.moved fun _ => 0))).outline := by
    intro items
    rw [← Verdict.outline_moved fun _ => 0]
    exact congrArg Verdict.outline (State.scan_moved [] (fun _ => 0) items).symm
  rw [outlines items, outlines others, erased, erased, same]

end Actor

end ActorSurface
