import ActorSurface.Proofs.Actor.Concatenation
import ActorSurface.Proofs.Actor.Faults

/-!
Sources that go on behind a fault. The scan decides almost every fault from the items up to one of them, and with a
newline behind a source these items stay what they are, whatever comes next; so the fault and its line stay too
(`scan_append_of_error`). Only what is unterminated, and a block that is still open at the end, can be mended by more text.
-/

namespace ActorSurface

namespace Actor

open Token (Item)

/-- The faults that more text can mend. -/
def Fault.Pending (fault : Fault) : Prop :=
  fault.message ∈ ["unmatched '\x7b'", "unterminated ACTOR declaration", "unterminated string literal",
    "unterminated block comment"]

instance (fault : Fault) : Decidable fault.Pending :=
  inferInstanceAs (Decidable (_ ∈ _))

theorem pending_unterminated {fault : Token.LexicalFault} (unterminated : fault ≠ .strayQuote) :
    (Fault.lexical fault).Pending := by
  cases fault with
  | unterminatedString => decide
  | unterminatedComment => decide
  | strayQuote => exact absurd rfl unterminated

/-- A fault that the scan decides only at the end of a source can be mended. -/
theorem pending_of_finish {state : State} {fault : Located Fault} (refuses : state.finish = .error fault) :
    fault.value.Pending := by
  rcases State.finish_eq_error_iff.mp refuses with ⟨line, parens, kinds, -, rfl⟩ | ⟨-, block, blocks, -, rfl⟩
  · show Fault.Pending .unterminatedDeclaration
    decide
  · show Fault.Pending .unmatchedOpen
    decide

/-- Tokens have no lexical fault. -/
theorem faultless_lexemes (lexemes : List Lexeme) : Token.Faultless (lexemes.map Lexeme.item) := by
  intro item listed
  obtain ⟨lexeme, -, rfl⟩ := List.mem_map.mp listed
  exact ⟨lexeme.value, rfl⟩

/-- A source that the scan refuses for a fault that more text cannot mend is refused for the same fault, on the same line,
    with a newline and any text behind it. -/
theorem scan_append_of_error (first second : String) (fault : Located Fault) (refused : scan first = .error fault)
    (settled : ¬ fault.value.Pending) : scan (first ++ "\n" ++ second) = .error fault := by
  rw [scan, Token.items_eq] at refused
  rcases scanItems_eq_error_iff.mp refused with ⟨before, item, behind, state, split, goes, refuses⟩ |
    ⟨lexemes, state, -, -, refuses⟩
  · have terminated : ∀ other, other ≠ .strayQuote → item.value ≠ .error other := by
      intro other unterminated same
      obtain ⟨line, value⟩ := item
      obtain rfl : value = .error other := same
      obtain rfl := Except.error.inj refuses
      exact settled (pending_unterminated unterminated)
    obtain ⟨others, items⟩ := Token.exists_itemsFrom_append_newline split (faultless_lexemes before)
      (terminated _ (by simp)) (terminated _ (by simp)) second.toList
    have text : (first ++ "\n" ++ second).toList = first.toList ++ '\n' :: second.toList := by
      simp
    rw [scan, Token.items_eq, text, items]
    exact scanItems_eq_error_iff.mpr (.inl ⟨before, item, others, state, rfl, goes, refuses⟩)
  · exact absurd (pending_of_finish refuses) settled

/-- A brace that closes nothing on line 2, and an actor that is never ended behind it. -/
theorem scan_append_of_unmatched_brace :
    scan "void f();\n\x7d" = .error ⟨2, .unmatchedClose⟩ ∧
      scan ("void f();\n\x7d" ++ "\n" ++ "\x7b ACTOR void g(") = .error ⟨2, .unmatchedClose⟩ := by
  have refused : scan "void f();\n\x7d" = .error ⟨2, .unmatchedClose⟩ := by decide +kernel
  exact ⟨refused, scan_append_of_error _ _ _ refused (by decide)⟩

end Actor

end ActorSurface
