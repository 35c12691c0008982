import ActorSurface.Proofs.Token.Seams
import Mathlib.Data.List.TakeWhile

/-!
A text with a carriage return before every newline (`crlf`), and where runs and bodies end in it. Blanks, comments and
directives take the carriage return with the newline and end where they end in the text itself; a string literal that
holds a newline is not closed any more (`stringBody_crlf_of_unclosed`), and the body of a character literal goes on to the
carriage return (`characterBody_crlf`).
-/

namespace ActorSurface

/-- The text with a carriage return before every newline. -/
def crlf (text : List Char) : List Char :=
  text.flatMap fun char => if char = '\n' then ['\r', '\n'] else [char]

@[simp]
theorem crlf_nil : crlf [] = [] := rfl

@[simp]
theorem crlf_newline (text : List Char) : crlf ('\n' :: text) = '\r' :: '\n' :: crlf text := rfl

theorem crlf_cons_of_ne {char : Char} (inLine : char ≠ '\n') (text : List Char) : crlf (char :: text) = char :: crlf text := by
  simp [crlf, inLine]

@[simp]
theorem crlf_append (front behind : List Char) : crlf (front ++ behind) = crlf front ++ crlf behind := by
  simp [crlf]

@[simp]
theorem newlines_crlf (text : List Char) : newlines (crlf text) = newlines text := by
  induction text with
  | nil => rfl
  | cons char text ih =>
    by_cases newline : char = '\n'
    · subst newline
      rw [crlf_newline, newlines_cons_of_ne (by decide), newlines_newline, newlines_newline, ih]
    · rw [crlf_cons_of_ne newline, newlines_cons_of_ne newline, newlines_cons_of_ne newline, ih]

/-- A text without newlines has none to lengthen. -/
theorem crlf_of_newline_not_mem {text : List Char} (inLine : '\n' ∉ text) : crlf text = text := by
  induction text with
  | nil => rfl
  | cons char text ih =>
    rw [List.mem_cons, not_or] at inLine
    rw [crlf_cons_of_ne (Ne.symm inLine.1), ih inLine.2]

/-- Only a newline at the front of a text makes the longer text begin otherwise. -/
theorem crlf_ne {char : Char} {text : List Char} (notReturn : char ≠ '\r')
    (other : ∀ behind, text ≠ char :: behind) (behind : List Char) : crlf text ≠ char :: behind := by
  cases text with
  | nil =>
    intro same
    cases same
  | cons first text =>
    intro same
    by_cases newline : first = '\n'
    · subst newline
      exact notReturn (List.cons.inj same).1.symm
    · rw [crlf_cons_of_ne newline] at same
      exact other text (by rw [(List.cons.inj same).1])

namespace Token

variable {text body rest : List Char}

/-! ### Bodies -/

/-- What stands behind a piece of the longer text: what stands there in the text, longer too, where the piece may have
    taken a first carriage return. -/
def Behind (rest longer : List Char) : Prop :=
  longer = crlf rest ∨ ∃ behind, rest = '\n' :: behind ∧ longer = '\n' :: crlf behind

theorem isBlank_return : isBlank '\r' = true := by
  decide

theorem isBlank_of_mem_crlf {blanks : List Char} (blank : ∀ char ∈ blanks, isBlank char = true) :
    ∀ char ∈ crlf blanks, isBlank char = true := by
  intro char listed
  obtain ⟨other, inside, here⟩ := List.mem_flatMap.mp listed
  by_cases newline : other = '\n'
  · rw [if_pos newline] at here
    simp only [List.mem_cons, List.not_mem_nil, or_false] at here
    rcases here with rfl | rfl
    · exact isBlank_return
    · exact isBlank_newline
  · rw [if_neg newline, List.mem_singleton] at here
    subst here
    exact blank char inside

/-- A carriage return that a piece takes leaves the items behind it as they are. -/
theorem Behind.itemsFrom {longer : List Char} (behind : Behind rest longer) (line : Nat) :
    itemsFrom line longer = itemsFrom line (crlf rest) := by
  rcases behind with rfl | ⟨more, rfl, rfl⟩
  · rfl
  · rw [crlf_newline, itemsFrom_blank isBlank_return]
    rfl

/-- A run of characters that newlines and carriage returns end takes the same from the longer text. -/
theorem takeWhile_crlf {test : Char → Bool} (newline : test '\n' = false) (carriage : test '\r' = false)
    (text : List Char) : (crlf text).takeWhile test = text.takeWhile test := by
  induction text with
  | nil => rfl
  | cons char text ih =>
    by_cases ends : char = '\n'
    · subst ends
      simp [newline, carriage]
    · rw [crlf_cons_of_ne ends, List.takeWhile_cons, List.takeWhile_cons, ih]

theorem dropWhile_crlf {test : Char → Bool} (newline : test '\n' = false) (carriage : test '\r' = false)
    (text : List Char) : (crlf text).dropWhile test = crlf (text.dropWhile test) := by
  induction text with
  | nil => rfl
  | cons char text ih =>
    by_cases ends : char = '\n'
    · subst ends
      simp [newline, carriage]
    · rw [crlf_cons_of_ne ends, List.dropWhile_cons, List.dropWhile_cons, ih]
      split
      · rfl
      · rw [crlf_cons_of_ne ends]

theorem newlines_takeWhile (text : List Char) : newlines (text.takeWhile (· ≠ '\n')) = 0 := by
  refine List.count_eq_zero.mpr fun listed => ?_
  simpa using List.mem_takeWhile_imp listed

/-- A line comment ends at the same newline. -/
theorem lineComment_crlf (text : List Char) :
    Behind (text.dropWhile (· ≠ '\n')) ((crlf text).dropWhile (· ≠ '\n')) := by
  induction text with
  | nil => exact .inl rfl
  | cons char text ih =>
    by_cases ends : char = '\n'
    · subst ends
      exact .inr ⟨text, by simp, by simp⟩
    · rw [crlf_cons_of_ne ends, List.dropWhile_cons_of_pos (by simpa using ends),
        List.dropWhile_cons_of_pos (by simpa using ends)]
      exact ih

/-- A directive ends at the same newline: also a backslash before the carriage return continues it. -/
theorem directiveBody_crlf (plain : '\r' ∉ text) :
    newlines (directiveBody (crlf text)).1 = newlines (directiveBody text).1 ∧
      Behind (directiveBody text).2 (directiveBody (crlf text)).2 := by
  fun_induction directiveBody text with
  | case1 => exact ⟨rfl, .inl rfl⟩
  | case2 text => simp at plain
  | case3 escaped text notContinued inner behind inside ih =>
    simp only [List.mem_cons, not_or] at plain
    obtain ⟨lines, onward⟩ := ih plain.2.2
    rw [inside] at lines onward
    by_cases newline : escaped = '\n'
    · subst newline
      rw [crlf_cons_of_ne (by decide), crlf_newline, directiveBody]
      refine ⟨?_, onward⟩
      simp [newlines_cons_of_ne, lines]
    · have notCarriage : ∀ behind, escaped = '\r' → crlf text = '\n' :: behind → False :=
        fun _ same _ => plain.2.1 same.symm
      rw [crlf_cons_of_ne (by decide), crlf_cons_of_ne newline, directiveBody]
      · refine ⟨?_, onward⟩
        simp [newlines_cons_of_ne, newline, lines]
      · exact notCarriage
  | case4 text =>
    refine ⟨?_, .inr ⟨text, rfl, ?_⟩⟩
    · simp [directiveBody, newlines_cons_of_ne]
    · simp [directiveBody]
  | case5 char text notContinued notEscape inLine inner behind inside ih =>
    simp only [List.mem_cons, not_or] at plain
    obtain ⟨lines, onward⟩ := ih plain.2
    rw [inside] at lines onward
    rw [crlf_cons_of_ne inLine]
    by_cases backslash : char = '\\'
    · subst backslash
      cases text with
      | nil =>
        obtain ⟨rfl, rfl⟩ := Prod.mk.inj inside
        exact ⟨rfl, .inl rfl⟩
      | cons next text => exact absurd rfl (notEscape next text rfl)
    · have body : directiveBody (char :: crlf text) = (char :: (directiveBody (crlf text)).1, (directiveBody (crlf text)).2) := by
        simp [directiveBody, backslash, inLine]
      rw [body]
      exact ⟨by rw [newlines_cons_of_ne inLine, newlines_cons_of_ne inLine, lines], onward⟩

/-- A block comment is closed by the same mark. -/
theorem commentBody_crlf (text : List Char) :
    commentBody (crlf text) = (commentBody text).map fun found => (crlf found.1, crlf found.2) := by
  fun_induction commentBody text with
  | case1 => rfl
  | case2 text =>
    rw [crlf_cons_of_ne (by decide), crlf_cons_of_ne (by decide), commentBody]
    rfl
  | case3 char text open' ih =>
    by_cases newline : char = '\n'
    · subst newline
      rw [crlf_newline, commentBody, commentBody, ih]
      · cases commentBody text <;> rfl
      · intro _ star
        cases star
      · intro _ star
        cases star
    · rw [crlf_cons_of_ne newline, commentBody, ih]
      · cases commentBody text with
        | none => rfl
        | some found => simp [crlf_cons_of_ne newline]
      · intro behind star slash
        cases text with
        | nil => cases slash
        | cons next text =>
          by_cases ends : next = '\n'
          · subst ends
            cases slash
          · rw [crlf_cons_of_ne ends] at slash
            exact open' text star (by rw [(List.cons.inj slash).1])

/-- A string literal without a newline in it is closed by the same quote. -/
theorem stringBody_crlf_of_closed (split : stringBody text = (body, '"' :: rest)) (inLine : '\n' ∉ body) :
    stringBody (crlf text) = (body, '"' :: crlf rest) := by
  fun_induction stringBody text generalizing body with
  | case1 => cases split
  | case2 escaped text inner behind inside ih =>
    obtain ⟨rfl, rfl⟩ := Prod.mk.inj split
    simp only [List.mem_cons, not_or] at inLine
    rw [crlf_cons_of_ne (by decide), crlf_cons_of_ne (Ne.symm inLine.2.1), stringBody, ih inside inLine.2.2]
  | case3 char text notEscape ends =>
    obtain ⟨rfl, same⟩ := Prod.mk.inj split
    obtain ⟨rfl, rfl⟩ := List.cons.inj same
    rw [crlf_cons_of_ne (by decide)]
    simp [stringBody]
  | case4 char text notEscape goes inner behind inside ih =>
    obtain ⟨rfl, rfl⟩ := Prod.mk.inj split
    simp only [List.mem_cons, not_or] at inLine
    simp only [Bool.or_eq_true, decide_eq_true_eq, not_or] at goes
    rw [crlf_cons_of_ne goes.2]
    simp [stringBody, goes, ih inside inLine.2]

/-- A string literal that is not closed, or holds a newline, is not closed in the longer text. -/
theorem stringBody_crlf_of_unclosed (split : stringBody text = (body, rest))
    (unclosed : (∀ behind, rest ≠ '"' :: behind) ∨ '\n' ∈ body) (behind : List Char) :
    (stringBody (crlf text)).2 ≠ '"' :: behind := by
  fun_induction stringBody text generalizing body rest with
  | case1 => simp [stringBody]
  | case2 escaped text inner remaining inside ih =>
    obtain ⟨rfl, rfl⟩ := Prod.mk.inj split
    by_cases newline : escaped = '\n'
    · -- The backslash takes the carriage return, and the newline ends the string.
      subst newline
      rw [crlf_cons_of_ne (by decide), crlf_newline, stringBody]
      simp [stringBody]
    · rw [crlf_cons_of_ne (by decide), crlf_cons_of_ne newline, stringBody]
      refine ih inside (unclosed.imp_right fun listed => ?_)
      simpa [Ne.symm newline] using listed
  | case3 char text notEscape ends =>
    obtain ⟨rfl, rfl⟩ := Prod.mk.inj split
    have notClosed : char ≠ '"' := by
      rintro rfl
      rcases unclosed with other | listed
      · exact other text rfl
      · cases listed
    by_cases newline : char = '\n'
    · subst newline
      simp [stringBody]
    · obtain rfl : char = '\\' := by simpa [notClosed, newline] using ends
      cases text with
      | nil => simp [crlf_cons_of_ne, stringBody]
      | cons escaped text => exact absurd rfl (notEscape escaped text rfl)
  | case4 char text notEscape goes inner remaining inside ih =>
    obtain ⟨rfl, rfl⟩ := Prod.mk.inj split
    simp only [Bool.or_eq_true, decide_eq_true_eq, not_or] at goes
    have onward := ih inside (unclosed.imp_right fun listed => by simpa [Ne.symm goes.2] using listed)
    rw [crlf_cons_of_ne goes.2]
    simpa [stringBody, goes] using onward

/-- The body of a character literal goes on in the longer text where it ends in the text. -/
theorem characterBody_crlf (split : characterBody text = (body, rest)) :
    characterBody (crlf text) = (body ++ (characterBody (crlf rest)).1, (characterBody (crlf rest)).2) := by
  fun_induction characterBody text generalizing body rest with
  | case1 =>
    obtain ⟨rfl, rfl⟩ := Prod.mk.inj split
    rfl
  | case2 text =>
    obtain ⟨rfl, rfl⟩ := Prod.mk.inj split
    rfl
  | case3 escaped text inLine inner behind inside ih =>
    obtain ⟨rfl, rfl⟩ := Prod.mk.inj split
    rw [crlf_cons_of_ne (by decide), crlf_cons_of_ne inLine, characterBody, if_neg inLine, ih inside]
    rfl
  | case4 char text notEscape ends =>
    obtain ⟨rfl, rfl⟩ := Prod.mk.inj split
    rfl
  | case5 char text notEscape goes inner behind inside ih =>
    obtain ⟨rfl, rfl⟩ := Prod.mk.inj split
    simp only [Bool.or_eq_true, decide_eq_true_eq, not_or] at goes
    rw [crlf_cons_of_ne goes.2]
    simp [characterBody, goes, ih inside]

/-- What may stand behind the body of a character literal. -/
theorem characterBody_rest (split : characterBody text = (body, rest)) :
    rest = [] ∨ rest = ['\\'] ∨ (∃ behind, rest = '\'' :: behind) ∨ (∃ behind, rest = '\n' :: behind) ∨
      ∃ behind, rest = '\\' :: '\n' :: behind := by
  fun_induction characterBody text generalizing body rest with
  | case1 =>
    obtain ⟨rfl, rfl⟩ := Prod.mk.inj split
    exact .inl rfl
  | case2 text =>
    obtain ⟨rfl, rfl⟩ := Prod.mk.inj split
    exact .inr (.inr (.inr (.inr ⟨text, rfl⟩)))
  | case3 escaped text inLine inner behind inside ih =>
    obtain ⟨rfl, rfl⟩ := Prod.mk.inj split
    exact ih inside
  | case4 char text notEscape ends =>
    obtain ⟨rfl, rfl⟩ := Prod.mk.inj split
    simp only [Bool.or_eq_true, decide_eq_true_eq] at ends
    rcases ends with (rfl | rfl) | rfl
    · exact .inr (.inr (.inl ⟨text, rfl⟩))
    · cases text with
      | nil => exact .inr (.inl rfl)
      | cons escaped text => exact absurd rfl (notEscape escaped text rfl)
    · exact .inr (.inr (.inr (.inl ⟨text, rfl⟩)))
  | case5 char text notEscape goes inner behind inside ih =>
    obtain ⟨rfl, rfl⟩ := Prod.mk.inj split
    exact ih inside

end Token

end ActorSurface
