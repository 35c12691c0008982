import ActorSurface.Proofs.Actor.Heading
import ActorSurface.Proofs.Actor.Lines
import ActorSurface.Proofs.Token.Seams

/-!
Sources one after the other. A scan does the same behind declarations that are already found as it does at the front
of a source, with the lines and positions moved (`State.scan_behind`). An accepted source leaves the scan with its
declarations and nothing open, so the scan of two sources with a newline between them is that of the second behind the
declarations of the first (`scan_append_newline`).
-/

namespace ActorSurface

namespace Actor

open Token (Item Kind)

/-! ### Scans further down -/

/-- The declaration, `count` lines further down. -/
def Declaration.shift (count : Nat) (declaration : Declaration) : Declaration :=
  { declaration with line := declaration.line + count }

/-- The verdict of a part of the scan that begins `count` lines further down: a fault moves with its line. -/
def Verdict.further {α β : Type} (count : Nat) (value : α → β) (verdict : Verdict α) : Verdict β :=
  (verdict.map value).mapError (Located.shift count)

/-- What is still to scan further down, behind declarations, where nothing is open. -/
theorem State.scan_behind (declared : List Declaration) (count : Nat) (items : List Item) :
    ((items.map (Located.shift count)).foldlM State.step ⟨[], declared.toArray, none, .outside⟩).bind State.finish =
      (scanItems items).further count fun others => declared ++ others.map (Declaration.shift count) :=
  State.scan_moved declared (· + count) items

/-! ### Verdicts on items one after the other -/

/-- A fault in the first items of a text is its verdict. -/
theorem scanItems_append_of_error {front : List Item} {fault : Located Fault}
    (ends : front.foldlM State.step State.initial = .error fault) (items : List Item) :
    scanItems (front ++ items) = .error fault := by
  rw [scanItems, List.foldlM_append, ends]
  rfl

/-- Behind items that go through, the scan goes on with the rest. -/
theorem scanItems_append_of_ok {front : List Item} {state : State}
    (goes : front.foldlM State.step State.initial = .ok state) (items : List Item) :
    scanItems (front ++ items) = (items.foldlM State.step state).bind State.finish := by
  rw [scanItems, List.foldlM_append, goes]
  rfl

/-! ### Accepted sources -/

/-- Items whose last token is no wait may stand before any token. -/
theorem Grammar.Items.before {follow : Option Kind} {lexemes : List Lexeme} {declared : List Declaration}
    (derived : Grammar.Items follow lexemes declared)
    (settled : ∀ lexeme ∈ lexemes.getLast?, Grammar.isWait lexeme.value = false) (other : Option Kind) :
    Grammar.Items other lexemes declared := by
  induction derived with
  | nil => exact .nil
  | block opens closes inside _ _ ih =>
    refine .block opens closes inside (ih fun lexeme last => settled lexeme ?_)
    exact List.mem_getLast?_append_of_mem_getLast? (List.mem_getLast?_cons last)
  | forward isActor stops heads _ ih =>
    refine .forward isActor stops heads (ih fun lexeme last => settled lexeme ?_)
    exact List.mem_getLast?_append_of_mem_getLast? (List.mem_getLast?_cons last)
  | actor isActor opens closes heads body _ ih =>
    refine .actor isActor opens closes heads body (ih fun lexeme last => settled lexeme ?_)
    exact List.mem_getLast?_append_of_mem_getLast? (List.mem_getLast?_cons last)
  | @wait follow lexeme rest _ waits free _ ih =>
    refine .wait waits ?_ (ih fun later last => settled later (List.mem_getLast?_cons last))
    cases rest with
    | nil =>
      have notWait := settled lexeme (by simp)
      rw [waits] at notWait
      cases notWait
    | cons later rest => exact free
  | other plain notWait _ ih =>
    exact .other plain notWait (ih fun later last => settled later (List.mem_getLast?_cons last))

/-- An accepted source whose last token is no wait leaves nothing open behind its declarations. -/
theorem foldlM_of_scan {source : String} {declared : List Declaration} (accepted : scan source = .ok declared)
    (settled : ∀ lexeme ∈ (lexemes source).getLast?, Grammar.isWait lexeme.value = false) :
    (Token.items source.toList).foldlM State.step State.initial = .ok ⟨[], declared.toArray, none, .outside⟩ := by
  have derived := (file_of_scan accepted).before settled (some .openParen)
  obtain ⟨mode, resting, goes⟩ := State.run_items derived [] [] .outside (State.Mode.resting_outside _)
  obtain rfl : mode = .outside := by
    rcases resting with outside | ⟨line, _, free⟩
    · exact outside
    · exact absurd rfl free
  rw [items_of_lexes (lexes_of_scan accepted), foldlM_items]
  exact goes

/-- An accepted source has no lexical fault. -/
theorem faultless_of_scan {source : String} {declared : List Declaration} (accepted : scan source = .ok declared) :
    Token.Faultless (Token.items source.toList) := by
  rw [items_of_lexes (lexes_of_scan accepted)]
  intro item listed
  obtain ⟨lexeme, _, rfl⟩ := List.mem_map.mp listed
  exact ⟨lexeme.value, rfl⟩

/-- Where a source passes the scan, its last token is no wait, and it does not end in a backslash or in a backslash
    and a carriage return, the scan of it with a newline and a second source behind it is the scan of the second,
    behind the declarations of the first and further down by its lines: the same declarations or the same fault. -/
theorem scan_append_newline (first second : String) (declared : List Declaration) (accepted : scan first = .ok declared)
    (settled : ∀ lexeme ∈ (lexemes first).getLast?, Grammar.isWait lexeme.value = false)
    (ends : ¬ Token.EndsContinued first.toList) :
    scan (first ++ "\n" ++ second) =
      match scan second with
      | .ok others => .ok (declared ++ others.map (Declaration.shift (newlines first.toList + 1)))
      | .error fault => .error (fault.shift (newlines first.toList + 1)) := by
  have text : (first ++ "\n" ++ second).toList = first.toList ++ '\n' :: second.toList := by
    simp
  have lines : 1 + newlines first.toList + 1 = 1 + (newlines first.toList + 1) := by
    omega
  have faultless := faultless_of_scan accepted
  have left := foldlM_of_scan accepted settled
  rw [Token.items_eq] at faultless left
  -- The items of the whole text: those of the first source, then those of the second further down.
  have items : Token.items (first ++ "\n" ++ second).toList = Token.itemsFrom 1 first.toList ++
      (Token.items second.toList).map (Located.shift (newlines first.toList + 1)) := by
    rw [text, Token.items_eq, Token.itemsFrom_append_newline (.inr ends) 1 faultless, lines, Token.itemsFrom_add,
      ← Token.items_eq second.toList]
  have behind := State.scan_behind declared (newlines first.toList + 1) (Token.items second.toList)
  rw [scan, items, scanItems_append_of_ok left, behind, ← scan]
  cases scan second with
  | error fault => rfl
  | ok others => rfl

/-- A forward declaration, and behind it on the next line an actor that waits. -/
theorem scan_append_newline_forward :
    scan ("ACTOR void f();" ++ "\n" ++ "ACTOR void g() \x7b wait(h()); \x7d") =
      .ok [⟨"f", 1, false, 0⟩, ⟨"g", 2, true, 1⟩] := by
  rw [scan_append_newline "ACTOR void f();" "ACTOR void g() \x7b wait(h()); \x7d" [⟨"f", 1, false, 0⟩] (by decide +kernel)
    (by decide +kernel) (by decide +kernel)]
  decide +kernel

end Actor

end ActorSurface
