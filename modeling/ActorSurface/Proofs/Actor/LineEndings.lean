import ActorSurface.Proofs.Actor.Concatenation
import ActorSurface.Proofs.Actor.Faults
import ActorSurface.Proofs.Token.Spoiled

/-!
The scan of a source with a carriage return before every newline. It answers what the scan of the source itself answers,
with the same lines, just where the scan does not come to a string literal that continues over a newline or to a lone
quote before one (`scan_crlf_eq_iff`); such a token is then a lexical fault.
-/

namespace ActorSurface

namespace Actor

open Token (Item Piece LexicalFault)

/-- The scan comes without a fault to the first token of a source that carriage returns spoil: the pieces before that
    token, and the fault that it becomes. -/
structure SpoiledBehind (source : String) (front : List Piece) (fault : LexicalFault) : Prop where
  first : Token.firstSpoiled (Token.pieces source.toList) = some (front, fault)
  reached : ∃ state, (Token.itemsAt 1 front).foldlM State.step State.initial = .ok state

namespace State

/-- A scan ends at the first lexical fault, if not before. -/
theorem foldlM_untilFault (state : State) (items : List Item) :
    (Token.untilFault items).foldlM State.step state = items.foldlM State.step state := by
  induction items generalizing state with
  | nil => rfl
  | cons item rest ih =>
    obtain ⟨line, value⟩ := item
    cases value with
    | error fault => rfl
    | ok kind =>
      rw [Token.untilFault, List.foldlM_cons, List.foldlM_cons]
      exact congrArg (state.step ⟨line, .ok kind⟩ >>= ·) (funext fun next => ih next)

/-! ### Lexical faults come from items -/

variable {state : State} {place : Nat} {fault : LexicalFault}

theorem outsideHeader_ne_lexical (line : Nat) (kind : Token.Kind) :
    state.outsideHeader line kind ≠ .error ⟨place, .lexical fault⟩ := by
  intro refuses
  rcases outsideHeader_eq_error_iff.mp refuses with ⟨-, -, same⟩ | ⟨-, -, same⟩ <;> cases same

/-- A step ends with a lexical fault only where its item is that fault. -/
theorem item_of_step_lexical {item : Item} (ends : state.step item = .error ⟨place, .lexical fault⟩) :
    item = ⟨place, .error fault⟩ := by
  obtain ⟨line, value⟩ := item
  cases value with
  | error other =>
    have same := Except.error.inj ends
    simp only [Located.mk.injEq, Fault.lexical.injEq] at same
    obtain ⟨rfl, rfl⟩ := same
    rfl
  | ok kind =>
    obtain ⟨blocks, declarations, current, mode⟩ := state
    cases mode with
    | outside => exact absurd ends (outsideHeader_ne_lexical line kind)
    | header start parens kinds =>
      obtain ⟨-, -, ⟨-, same⟩ | ⟨-, -, same⟩⟩ := inHeader_eq_error_iff.mp ends <;> cases same
    | behindWait wait =>
      rcases (step_behindWait_eq_error_iff rfl).mp ends with ⟨-, same⟩ | ⟨-, reads⟩
      · cases same
      · exact absurd reads (outsideHeader_ne_lexical line kind)

/-- A scan ends with a lexical fault only where one of its items is that fault. -/
theorem mem_of_lexical {items : List Item}
    (ends : (items.foldlM State.step state).bind State.finish = .error ⟨place, .lexical fault⟩) :
    ⟨place, .error fault⟩ ∈ items := by
  cases goes : items.foldlM State.step state with
  | error other =>
    rw [goes] at ends
    obtain rfl : other = ⟨place, .lexical fault⟩ := Except.error.inj ends
    obtain ⟨before, item, behind, reached, rfl, -, refuses⟩ := foldlM_eq_error_iff.mp goes
    rw [item_of_step_lexical refuses]
    exact List.mem_append_right before List.mem_cons_self
  | ok last =>
    rw [goes] at ends
    rcases finish_eq_error_iff.mp ends with ⟨_, _, _, -, same⟩ | ⟨-, _, _, -, same⟩ <;> cases same

end State

/-! ### Sources with carriage returns -/

/-- The scan of a source with carriage returns is that of its pieces, spoiled tokens being faults. -/
theorem scan_crlf {source : String} (plain : '\r' ∉ source.toList) :
    scan (String.ofList (crlf source.toList)) =
      scanItems (Token.itemsAt 1 (Token.spoilt (Token.pieces source.toList))) := by
  have same := Token.untilFault_itemsFrom_crlf plain 1
  rw [scan, String.toList_ofList, Token.items_eq]
  unfold scanItems
  rw [← State.foldlM_untilFault, same, State.foldlM_untilFault]

theorem scan_eq_pieces (source : String) :
    scan source = scanItems (Token.itemsAt 1 (Token.pieces source.toList)) := by
  rw [scan, Token.items_eq]
  rfl

/-- Where the scan comes to a spoiled token, it ends there with the fault that the token becomes, and the scan of the
    source itself does not. -/
theorem SpoiledBehind.ends {source : String} {front : List Piece} {fault : LexicalFault}
    (spoiled : SpoiledBehind source front fault) (plain : '\r' ∉ source.toList) :
    scan (String.ofList (crlf source.toList)) = .error ⟨1 + newlines (front.flatMap Piece.text), .lexical fault⟩ ∧
      scan source ≠ .error ⟨1 + newlines (front.flatMap Piece.text), .lexical fault⟩ := by
  obtain ⟨piece, back, rest, split, isSpoiled, spoilt⟩ := Token.exists_of_firstSpoiled spoiled.first
  obtain ⟨state, goes⟩ := spoiled.reached
  obtain ⟨⟨kind, item⟩, later⟩ := Piece.of_spoiled isSpoiled (1 + newlines (front.flatMap Piece.text))
  constructor
  · rw [scan_crlf plain, spoilt, Token.itemsAt_append, scanItems_append_of_ok goes, Token.itemsAt,
      Token.item?_of_malformed rfl]
    rfl
  · intro ends
    rw [scan_eq_pieces, split, Token.itemsAt_append, scanItems_append_of_ok goes, Token.itemsAt, item] at ends
    rcases List.mem_cons.mp (State.mem_of_lexical ends) with here | behind
    · cases congrArg Located.value here
    · rw [Token.pieces_of_append (split.trans (List.append_cons front piece back))] at behind
      exact later fault behind

/-- A source without carriage returns is scanned alike with one before every newline, down to the lines, just where the
    scan does not come to a token that they spoil; and where it does, they make a lexical fault of that token. -/
theorem scan_crlf_eq_iff (source : String) (plain : '\r' ∉ source.toList) :
    (scan (String.ofList (crlf source.toList)) = scan source ↔ ∀ front fault, ¬ SpoiledBehind source front fault) ∧
      ∀ front fault, SpoiledBehind source front fault →
        scan (String.ofList (crlf source.toList)) =
          .error ⟨1 + newlines (front.flatMap Piece.text), .lexical fault⟩ := by
  refine ⟨⟨?_, ?_⟩, fun front fault spoiled => (spoiled.ends plain).1⟩
  · intro same front fault spoiled
    obtain ⟨ends, differs⟩ := spoiled.ends plain
    exact differs (same ▸ ends)
  · intro unspoiled
    cases found : Token.firstSpoiled (Token.pieces source.toList) with
    | none => rw [scan_crlf plain, Token.spoilt_of_none found, ← scan_eq_pieces]
    | some token =>
      obtain ⟨front, fault⟩ := token
      obtain ⟨piece, back, rest, split, _, spoilt⟩ := Token.exists_of_firstSpoiled found
      cases goes : (Token.itemsAt 1 front).foldlM State.step State.initial with
      | ok state => exact absurd ⟨found, state, goes⟩ (unspoiled front fault)
      | error other =>
        rw [scan_crlf plain, spoilt, Token.itemsAt_append, scanItems_append_of_error goes, scan_eq_pieces, split,
          Token.itemsAt_append, scanItems_append_of_error goes]

/-- A directive that continues over a newline and a comment are scanned alike. -/
theorem scan_crlf_eq_of_directive :
    scan (String.ofList (crlf "#define A \\\n b\nACTOR void f(); // c\n".toList)) =
      scan "#define A \\\n b\nACTOR void f(); // c\n" := by
  have plain : '\r' ∉ "#define A \\\n b\nACTOR void f(); // c\n".toList := by decide +kernel
  have unspoiled : Token.firstSpoiled (Token.pieces "#define A \\\n b\nACTOR void f(); // c\n".toList) = none := by
    decide +kernel
  refine (scan_crlf_eq_iff _ plain).1.mpr fun front fault spoiled => ?_
  have found := spoiled.first
  rw [unspoiled] at found
  cases found

/-- That line endings never matter is not so: a string literal that continues over a newline is accepted, and with a
    carriage return before the newline it is refused. -/
theorem not_all_line_endings_alike :
    ¬ ∀ source : String, '\r' ∉ source.toList → scan (String.ofList (crlf source.toList)) = scan source := by
  intro claimed
  have accepted : scan "\"a\\\nb\";" = .ok [] := by decide +kernel
  have refused : scan (String.ofList (crlf "\"a\\\nb\";".toList)) = .error ⟨1, .lexical .unterminatedString⟩ := by
    decide +kernel
  have same := claimed "\"a\\\nb\";" (by decide +kernel)
  rw [accepted, refused] at same
  cases same

end Actor

end ActorSurface
