import ActorSurface.Actor.Scan
import ActorSurface.Proofs.Trap

/-!
The parts of the scan that rest on operations which may have no result: how long the template clause of a header
is, what stands behind it, how deep its brackets are nested, and the wait that is counted for an actor. Each is
given with these operations checked, where counters hold numbers up to `most`. No header that is counted that far
is too long for them (`returnsChecked_eq`, `nameChecked_eq`), and a wait is counted wherever the actor is declared
(`addWaitChecked_eq`).
-/

namespace ActorSurface

namespace Actor

open Token (Kind)

/-- The number of open parentheses behind a kind. -/
def parensChecked (most parens : Nat) : Kind → Except Trap Nat
  | .openParen => Trap.increment most parens
  | .closeParen => .ok (parens - 1)
  | _ => .ok parens

theorem parensChecked_eq {most parens : Nat} (room : parens < most) (kind : Kind) :
    parensChecked most parens kind = .ok (State.parensBehind parens kind) := by
  cases kind <;> first | rfl | exact Trap.increment_of_lt room

/-- The declarations with one more wait for the one at a position. -/
def addWaitChecked (most : Nat) (declarations : Array Declaration) (position : Nat) :
    Except Trap (Array Declaration) :=
  if inside : position < declarations.size then
    (Trap.increment most declarations[position].waits).map fun waits =>
      declarations.set position { declarations[position] with waits }
  else .error .element

theorem addWaitChecked_eq {most : Nat} {declarations : Array Declaration} {position : Nat}
    (inside : position < declarations.size) (room : declarations[position].waits < most) :
    addWaitChecked most declarations position = .ok (declarations.modify position Declaration.addWait) := by
  have counted : declarations.modify position Declaration.addWait =
      declarations.set position declarations[position].addWait := by
    apply Array.ext
    · simp
    · intro other _ _
      simp only [Array.getElem_modify, Array.getElem_set]
      split
      next same => simp only [same]
      next => rfl
  rw [addWaitChecked, dif_pos inside, Trap.increment_of_lt room, counted]
  rfl

namespace Header

/-- How many kinds a clause takes, where `depth` of its brackets are open and it has taken `consumed` kinds so far:
    through the bracket that closes the last of them, or all that follow. -/
def clauseChecked (most depth consumed : Nat) : Header → Except Trap Nat
  | [] => .ok consumed
  | kind :: header => do
    let consumed ← Trap.increment most consumed
    match kind with
    | .less => clauseChecked most (← Trap.increment most depth) consumed header
    | .greater =>
      let depth ← Trap.decrement depth
      if depth = 0 then .ok consumed else clauseChecked most depth consumed header
    | _ => clauseChecked most depth consumed header

/-- The header without the template clause in front. -/
def withoutTemplateChecked (most : Nat) : Header → Except Trap Header
  | .template :: .less :: header => do Trap.sliceFrom (← clauseChecked most 1 0 header) header
  | header => .ok header

/-- Whether the return type begins with a future or is void. -/
def returnsChecked (most : Nat) (header : Header) : Except Trap Bool :=
  (withoutTemplateChecked most header).map fun rest =>
    match rest.find? fun kind => !isModifier kind with
    | some .future => true
    | some .void => true
    | _ => false

/-- The number of open angle brackets behind a kind. -/
def anglesChecked (most angles : Nat) : Kind → Except Trap Nat
  | .less => Trap.increment most angles
  | .greater => .ok (angles - 1)
  | _ => .ok angles

/-- The identifier before the first parenthesis that opens outside angle brackets. -/
def nameChecked (most angles : Nat) (previous : Option Kind) : Header → Except Trap (Option String)
  | [] => .ok none
  | kind :: header =>
    if kind = .openParen ∧ angles = 0 then
      .ok <| match previous with
        | some (.identifier name) => some name
        | _ => none
    else do nameChecked most (← anglesChecked most angles kind) (some kind) header

/-- A clause is as long as what is cut off in front of the text behind it. -/
theorem clauseChecked_eq (most depth consumed : Nat) (header : Header)
    (deep : depth + 1 + header.length ≤ most) (long : consumed + header.length ≤ most) :
    ∃ taken, taken ≤ header.length ∧ clauseChecked most (depth + 1) consumed header = .ok (consumed + taken) ∧
      header.drop taken = behindClause depth header := by
  induction header generalizing depth consumed with
  | nil => exact ⟨0, Nat.le_refl 0, rfl, by simp [behindClause]⟩
  | cons kind header ih =>
    simp only [List.length_cons] at deep long
    rw [clauseChecked, Trap.increment_of_lt (by omega)]
    -- One more kind is taken, and the clause goes on behind it with as many open brackets.
    have onward : ∀ further, further + 1 + header.length ≤ most →
        behindClause depth (kind :: header) = behindClause further header →
        ∃ taken, taken ≤ header.length + 1 ∧
          clauseChecked most (further + 1) (consumed + 1) header = .ok (consumed + taken) ∧
          (kind :: header).drop taken = behindClause depth (kind :: header) := by
      intro further room same
      obtain ⟨taken, short, goes, cut⟩ := ih further (consumed + 1) room (by omega)
      refine ⟨taken + 1, by omega, ?_, ?_⟩
      · rw [goes, Nat.add_assoc, Nat.add_comm 1 taken]
      · rw [List.drop_succ_cons, cut, same]
    cases kind with
    | less =>
      obtain ⟨taken, short, goes, cut⟩ := onward (depth + 1) (by omega) rfl
      refine ⟨taken, short, ?_, cut⟩
      rw [← goes]
      simp only [Trap.increment_of_lt (show depth + 1 < most by omega)]
      rfl
    | greater =>
      cases depth with
      | zero => exact ⟨1, by simp, rfl, rfl⟩
      | succ depth => exact onward depth (by omega) rfl
    | _ => exact onward depth (by omega) rfl

example : clauseChecked 9 0 0 [.greater] = .error .belowZero := rfl

theorem withoutTemplateChecked_eq {most : Nat} {header : Header} (room : header.length ≤ most) :
    withoutTemplateChecked most header = .ok header.withoutTemplate := by
  unfold withoutTemplateChecked
  split
  next header =>
    simp only [List.length_cons] at room
    obtain ⟨taken, short, goes, cut⟩ := clauseChecked_eq most 0 0 header (by omega) (by omega)
    rw [goes]
    change Trap.sliceFrom (0 + taken) header = _
    rw [Nat.zero_add, Trap.sliceFrom_of_le short, cut]
    rfl
  next other =>
    rw [withoutTemplate]
    exact other

theorem returnsChecked_eq {most : Nat} {header : Header} (room : header.length ≤ most) :
    returnsChecked most header = .ok header.returnsFutureOrVoid := by
  rw [returnsChecked, withoutTemplateChecked_eq room]
  rfl

theorem nameChecked_eq {most : Nat} (angles : Nat) (previous : Option Kind) (header : Header)
    (room : angles + header.length ≤ most) :
    nameChecked most angles previous header = .ok (nameBehind angles previous header) := by
  induction header generalizing angles previous with
  | nil => rfl
  | cons kind header ih =>
    simp only [List.length_cons] at room
    unfold nameChecked nameBehind
    split
    · rfl
    · cases kind with
      | less =>
        rw [anglesChecked, Trap.increment_of_lt (by omega)]
        exact ih (angles + 1) _ (by omega)
      | greater => exact ih (angles - 1) _ (by omega)
      | _ => exact ih angles _ (by omega)

end Header

end Actor

end ActorSurface
