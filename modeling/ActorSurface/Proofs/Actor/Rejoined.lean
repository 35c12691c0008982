import ActorSurface.Proofs.Actor.Heading
import ActorSurface.Proofs.Actor.Lines
import ActorSurface.Proofs.Token.Slices

/-!
What stands between the tokens of a source carries no meaning. The slices of its tokens, with other separators between them,
are a source of the same tokens, and the scan of it has the same outline (`scan_of_rejoined`).
-/

namespace ActorSurface

namespace Actor

open Token (Cursor Kind)

/-- What the tokens of a source before its end are spelled with, in order. -/
def slices (source : String) : List (List Char) :=
  ((Cursor.ofText source.toList).tokens.1.filter fun token => token.kind ≠ .endOfText).map
    (Token.slice source.toList)

/-- The slices of a source that lexes spell its tokens. -/
theorem spell_of_lexes {source : String} (lexes : Lexes source) :
    List.Forall₂ Token.Spells (slices source) ((lexemes source).map Located.value) := by
  have spell := Token.spell_of_readings [] source.toList _ (readings_of_lexes lexes)
  have kinds : ∀ tokens : List Token, (tokens.map (Lexeme.ofToken (.ofText source.toList))).map Located.value =
      tokens.map Token.kind := fun tokens => by simp [Lexeme.ofToken]
  rw [lexemes, kinds]
  exact spell

theorem map_value_item (lexemes : List Lexeme) :
    (lexemes.map Lexeme.item).map Located.value = (lexemes.map Located.value).map .ok := by
  simp [Lexeme.item]

/-- Items that tell of tokens only are those of lexemes. -/
theorem exists_lexemes_of_map_value {items : List Token.Item} {kinds : List Kind}
    (same : items.map Located.value = kinds.map .ok) : ∃ lexemes : List Lexeme, items = lexemes.map Lexeme.item := by
  induction items generalizing kinds with
  | nil => exact ⟨[], rfl⟩
  | cons item rest ih =>
    obtain ⟨line, value⟩ := item
    cases kinds with
    | nil => cases same
    | cons kind kinds =>
      obtain ⟨here, onward⟩ := List.cons.inj same
      obtain rfl : value = .ok kind := here
      obtain ⟨lexemes, rfl⟩ := ih onward
      exact ⟨⟨line, kind⟩ :: lexemes, rfl⟩

/-- A source that lexes has the same tokens as its slices with any separators between them, newlines with any blanks behind
    them; and the scan of both finds the same declarations, their lines aside, or fails with the same message. -/
theorem scan_of_rejoined (source joined : String) (lexes : Lexes source)
    (joins : Token.Joined (slices source) joined.toList) :
    Lexes joined ∧ (lexemes joined).map Located.value = (lexemes source).map Located.value ∧
      (scan joined).outline = (scan source).outline := by
  have read := Token.map_value_of_joined (spell_of_lexes lexes) joins 1
  rw [← Token.items_eq] at read
  obtain ⟨others, items⟩ := exists_lexemes_of_map_value read
  have lexesToo : Lexes joined := lexes_of_items items
  rw [← map_value_item, ← items_of_lexes lexes] at read
  refine ⟨lexesToo, ?_, outline_scanItems_congr read⟩
  rw [items_of_lexes lexes, items_of_lexes lexesToo, map_value_item, map_value_item] at read
  exact List.map_injective_iff.mpr (fun _ _ same => Except.ok.inj same) read

/-- A wait and a parenthesis with a comment between them, and on two lines. -/
theorem scan_of_rejoined_wait :
    Lexes "wait/* \n */(" ∧ slices "wait/* \n */(" = [['w', 'a', 'i', 't'], ['(']] ∧
      (scan "wait\n\t(").outline = (scan "wait/* \n */(").outline := by
  have lexes : Lexes "wait/* \n */(" := by decide +kernel
  have spelled : slices "wait/* \n */(" = [['w', 'a', 'i', 't'], ['(']] := by decide +kernel
  have joins : Token.Joined (slices "wait/* \n */(") "wait\n\t(".toList := by
    rw [spelled]
    have separates : Token.Separator ['\n', '\t'] := .mk (List.forall_mem_singleton.mpr (by decide))
    exact @Token.Joined.cons ['w', 'a', 'i', 't'] _ ['('] _ separates (.last ['('])
  exact ⟨lexes, spelled, (scan_of_rejoined _ _ lexes joins).2.2⟩

end Actor

end ActorSurface
