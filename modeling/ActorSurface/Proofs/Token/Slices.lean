import ActorSurface.Proofs.Token.Seams
import ActorSurface.Proofs.Token.Readings
import Mathlib.Data.List.TakeWhile

/-!
The slices of a source: what its tokens are spelled with. By itself each slice is cut as one piece, which is its token again
(`spells_of_cut`), and a newline behind it changes nothing. So slices with separators between them that begin with a newline
are read as the tokens that they were cut from (`map_value_of_joined`).
-/

namespace ActorSurface

/-- The characters of a text that begin between two byte offsets, where the text begins at an offset. -/
def sliceFrom (offset start stop : Nat) : List Char → List Char
  | [] => []
  | char :: text =>
    let rest := sliceFrom (offset + char.utf8Size) start stop text
    if start ≤ offset ∧ offset < stop then char :: rest else rest

theorem sliceFrom_append (offset start stop : Nat) (front back : List Char) :
    sliceFrom offset start stop (front ++ back) =
      sliceFrom offset start stop front ++ sliceFrom (offset + Utf8.size front) start stop back := by
  induction front generalizing offset with
  | nil => rfl
  | cons char front ih =>
    simp only [List.cons_append, sliceFrom, ih, Utf8.size, Nat.add_assoc]
    split <;> rfl

theorem sliceFrom_before {offset start stop : Nat} {text : List Char} (before : offset + Utf8.size text ≤ start) :
    sliceFrom offset start stop text = [] := by
  induction text generalizing offset with
  | nil => rfl
  | cons char text ih =>
    have some_byte := char.utf8Size_pos
    simp only [Utf8.size] at before
    rw [sliceFrom, if_neg (by omega)]
    exact ih (by omega)

theorem sliceFrom_behind {offset start stop : Nat} {text : List Char} (behind : stop ≤ offset) :
    sliceFrom offset start stop text = [] := by
  induction text generalizing offset with
  | nil => rfl
  | cons char text ih =>
    rw [sliceFrom, if_neg (by omega)]
    exact ih (by omega)

theorem sliceFrom_inside {offset start stop : Nat} {text : List Char} (start_le : start ≤ offset)
    (le_stop : offset + Utf8.size text ≤ stop) : sliceFrom offset start stop text = text := by
  induction text generalizing offset with
  | nil => rfl
  | cons char text ih =>
    have some_byte := char.utf8Size_pos
    simp only [Utf8.size] at le_stop
    rw [sliceFrom, if_pos (by omega), ih (by omega) (by omega)]

namespace Token

/-- What a token is spelled with in its text. -/
def slice (text : List Char) (token : Token) : List Char :=
  sliceFrom 0 token.start token.stop text

/-- The slice of what stands between two stretches of a text. -/
theorem slice_of_append (front taken back : List Char) (kind : Kind) :
    slice (front ++ taken ++ back) ⟨kind, Utf8.size front, Utf8.size front + Utf8.size taken⟩ = taken := by
  have size := Utf8.size_append front taken
  show sliceFrom 0 (Utf8.size front) (Utf8.size front + Utf8.size taken) (front ++ taken ++ back) = taken
  rw [sliceFrom_append, sliceFrom_append, sliceFrom_before (by omega), sliceFrom_inside (by omega) (by omega),
    sliceFrom_behind (by omega), List.append_nil, List.nil_append]

/-! ### Pieces by themselves -/

variable {body rest text : List Char}

/-- A closed character literal has the same body with anything else behind it. -/
theorem characterBody_of_closed (closed : characterBody text = (body, '\'' :: rest)) (other : List Char) :
    characterBody (body ++ '\'' :: other) = (body, '\'' :: other) := by
  fun_induction characterBody text generalizing body with
  | case1 => cases closed
  | case2 text => cases closed
  | case3 escaped text inLine inner behind split ih =>
    obtain ⟨rfl, rfl⟩ := Prod.mk.inj closed
    simp [characterBody, inLine, ih split]
  | case4 char text notEscape ends =>
    obtain ⟨rfl, same⟩ := Prod.mk.inj closed
    simp [characterBody]
  | case5 char text notEscape goes inner behind split ih =>
    obtain ⟨rfl, rfl⟩ := Prod.mk.inj closed
    have plain : char ≠ '\\' := by
      rintro rfl
      simp at goes
    rw [List.cons_append, characterBody, if_neg goes, ih split]
    simp [plain]

/-- Some characters spell a kind of token: by themselves they are cut as one piece, which is that token. -/
def Spells (slice : List Char) (kind : Kind) : Prop :=
  ∃ char tail, slice = char :: tail ∧ Piece.cut char tail = (⟨.token kind, slice⟩, [])

/-- A token begins with no blank and with no number sign. -/
theorem visible_of_token {char : Char} {kind : Kind} (token : (Piece.cut char text).1.form = .token kind) :
    isBlank char = false ∧ char ≠ '#' := by
  constructor
  · by_contra blank
    rw [cut_of_isBlank (by simpa using blank)] at token
    cases token
  · rintro rfl
    cases token

namespace Piece

variable {kind : Kind} {char : Char} {taken : List Char}

/-- What goes on as long as a test holds does so by itself, up to its end. -/
theorem cutRun_alone {form : List Char → Form} {test : Char → Bool}
    (cut : cutRun form test char text = (⟨.token kind, taken⟩, rest)) :
    cutRun form test char taken.tail = (⟨.token kind, taken⟩, []) := by
  obtain ⟨same, -⟩ := Prod.mk.inj cut
  obtain ⟨isToken, rfl⟩ := Piece.mk.inj same
  have nothing : (text.takeWhile test).dropWhile test = [] :=
    List.dropWhile_eq_nil_iff.mpr fun char listed => List.mem_takeWhile_imp listed
  rw [cutRun, List.tail_cons, List.takeWhile_idem, nothing, isToken]

theorem cutString_alone (cut : cutString text = (⟨.token kind, taken⟩, rest)) :
    cutString taken.tail = (⟨.token kind, taken⟩, []) := by
  unfold cutString at cut
  split at cut
  next body behind closed =>
    obtain ⟨same, -⟩ := Prod.mk.inj cut
    obtain ⟨form, rfl⟩ := Piece.mk.inj same
    rw [List.tail_cons, cutString_of_closed (stringBody_of_closed closed []), form]
  next => cases cut

theorem cutQuote_alone (cut : cutQuote text = (⟨.token kind, taken⟩, rest)) :
    cutQuote taken.tail = (⟨.token kind, taken⟩, []) := by
  unfold cutQuote at cut
  split at cut
  next body behind closed =>
    obtain ⟨same, -⟩ := Prod.mk.inj cut
    obtain ⟨form, rfl⟩ := Piece.mk.inj same
    rw [List.tail_cons, cutQuote_of_closed (characterBody_of_closed closed []), form]
  next =>
    obtain ⟨same, -⟩ := Prod.mk.inj cut
    obtain ⟨form, rfl⟩ := Piece.mk.inj same
    rw [← form]
    rfl
  next => cases cut

theorem cutSlash_alone (cut : cutSlash text = (⟨.token kind, taken⟩, rest)) :
    cutSlash taken.tail = (⟨.token kind, taken⟩, []) := by
  unfold cutSlash at cut
  split at cut
  next => cases cut
  next => split at cut <;> cases cut
  next =>
    obtain ⟨same, -⟩ := Prod.mk.inj cut
    obtain ⟨form, rfl⟩ := Piece.mk.inj same
    rw [← form]
    rfl

/-- A token by itself is cut as one piece, which is that token. -/
theorem cut_alone (cut : Piece.cut char text = (⟨.token kind, taken⟩, rest)) :
    Piece.cut char taken.tail = (⟨.token kind, taken⟩, []) := by
  unfold Piece.cut at cut ⊢
  split_ifs at cut ⊢ with blank word digit sign doubleQuote singleQuote slash
  · cases cut
  · rw [cutWord_eq] at cut ⊢
    exact cutRun_alone cut
  · rw [cutNumber_eq] at cut ⊢
    exact cutRun_alone cut
  · cases cut
  · exact cutString_alone cut
  · exact cutQuote_alone cut
  · exact cutSlash_alone cut
  · obtain ⟨same, -⟩ := Prod.mk.inj cut
    obtain ⟨form, rfl⟩ := Piece.mk.inj same
    rw [form]
    rfl

end Piece

/-- The text of a token spells it. -/
theorem spells_of_cut {char : Char} {kind : Kind} (token : (Piece.cut char text).1.form = .token kind) :
    Spells (Piece.cut char text).1.text kind := by
  have whole := Piece.cut_append char text
  have nonempty := Piece.cut_text_ne_nil char text
  generalize cut : Piece.cut char text = result at token whole nonempty
  obtain ⟨⟨form, taken⟩, rest⟩ := result
  obtain rfl : form = .token kind := token
  cases taken with
  | nil => exact absurd rfl nonempty
  | cons first tail =>
    obtain rfl : first = char := (List.cons.inj whole).1
    exact ⟨first, tail, rfl, Piece.cut_alone cut⟩

theorem Spells.itemsFrom {slice : List Char} {kind : Kind} (spells : Spells slice kind) (line : Nat) :
    itemsFrom line slice = [⟨line, .ok kind⟩] := by
  obtain ⟨char, tail, rfl, cut⟩ := spells
  rw [itemsFrom_cons, cut, itemsFrom_nil]
  rfl

/-- A newline behind a slice leaves it the token that it is. -/
theorem Spells.itemsFrom_newline {slice : List Char} {kind : Kind} (spells : Spells slice kind) (line : Nat)
    (more : List Char) : Token.itemsFrom line (slice ++ '\n' :: more) =
      ⟨line, .ok kind⟩ :: Token.itemsFrom (line + newlines slice) ('\n' :: more) := by
  obtain ⟨char, tail, rfl, cut⟩ := spells
  have form : (Piece.cut char tail).1.form = .token kind := by rw [cut]
  obtain ⟨visible, notSign⟩ := visible_of_token form
  have formed : ∀ fault, (Piece.cut char tail).1.form ≠ .malformed fault := by simp [form]
  have further := Piece.cut_append_newline visible (formed _) (formed _) (fun sign => absurd sign notSign) more
  rw [cut, List.nil_append] at further
  rw [List.cons_append, itemsFrom_cons, further]
  rfl

/-- The slices of the tokens of a text spell their kinds, where the text has no lexical fault. -/
theorem spell_of_readings (front behind : List Char) (tokens : List Token)
    (readings : readingsAt (Utf8.size front) (pieces behind) = tokens.map .ok) :
    List.Forall₂ Spells (tokens.map (slice (front ++ behind))) (tokens.map Token.kind) := by
  fun_induction pieces behind generalizing front tokens with
  | case1 =>
    obtain rfl := List.map_eq_nil_iff.mp readings.symm
    exact .nil
  | case2 char text cut ih =>
    have whole : front ++ cut.1.text ++ cut.2 = front ++ char :: text := by
      rw [List.append_assoc, Piece.cut_append]
    have onward := ih (front ++ cut.1.text)
    rw [Utf8.size_append, whole] at onward
    rw [readingsAt] at readings
    cases form : cut.1.form with
    | skipped what =>
      rw [Piece.reading?, form] at readings
      exact onward tokens readings
    | malformed fault =>
      rw [Piece.reading?, form] at readings
      cases tokens <;> cases readings
    | token kind =>
      rw [Piece.reading?, form] at readings
      cases tokens with
      | nil => cases readings
      | cons token tokens =>
        obtain ⟨first, rest⟩ := List.cons.inj readings
        obtain rfl := Except.ok.inj first
        have here : slice (front ++ char :: text) ⟨kind, Utf8.size front, Utf8.size front + cut.1.size⟩ = cut.1.text := by
          rw [← whole]
          exact slice_of_append front cut.1.text cut.2 kind
        refine .cons ?_ (onward tokens rest)
        rw [here]
        exact spells_of_cut form

/-! ### Joined slices -/

/-- A newline and any blanks. -/
inductive Separator : List Char → Prop
  | mk {blanks : List Char} : (∀ char ∈ blanks, isBlank char = true) → Separator ('\n' :: blanks)

/-- Slices in order with separators between them. There may be one at the end, as before the empty slice of the end. -/
inductive Joined : List (List Char) → List Char → Prop
  | nil : Joined [] []
  | last (slice : List Char) : Joined [slice] slice
  | cons {slice separator text : List Char} {slices : List (List Char)} : Separator separator → Joined slices text →
      Joined (slice :: slices) (slice ++ separator ++ text)

/-- Joined slices are read as what they spell. -/
theorem map_value_of_joined {slices : List (List Char)} {kinds : List Kind} {text : List Char}
    (spell : List.Forall₂ Spells slices kinds) (joined : Joined slices text) (line : Nat) :
    (itemsFrom line text).map Located.value = kinds.map .ok := by
  induction joined generalizing kinds line with
  | nil =>
    cases spell
    simp
  | last slice =>
    cases spell with
    | cons spells rest =>
      cases rest
      rw [spells.itemsFrom]
      rfl
  | cons separates _ ih =>
    cases spell with
    | cons spells rest =>
      cases separates with
      | mk blanks =>
        have onward := ih rest
        rw [List.append_assoc, List.cons_append, spells.itemsFrom_newline, Token.itemsFrom_newline, itemsFrom_blanks blanks,
          List.map_cons, onward]
        rfl

end Token

end ActorSurface
