import ActorSurface.Proofs.Token.Pattern
import ActorSurface.Token.Piece

/-!
Longest runs. What a body function splits off is the longest run of the elements of its pattern at that
place (`longestRun_stringBody`, `longestRun_characterBody`), and so is what is taken while a class holds
(`longestRun_takeWhile`). Only the body of a directive takes more than that, by one backslash, where it is
the last character of the text (`directiveBody_run`).
-/

namespace ActorSurface

namespace Token

open scoped Computability

open Pattern

/-! ### Elements -/

theorem append_mem_kstar {element : Language Char} {one rest : List Char} (first : one ∈ element)
    (others : rest ∈ element∗) : one ++ rest ∈ element∗ := by
  obtain ⟨words, rfl, members⟩ := Language.mem_kstar.mp others
  refine Language.mem_kstar.mpr ⟨one :: words, rfl, ?_⟩
  intro word listed
  rcases List.mem_cons.mp listed with rfl | later
  · exact first
  · exact members word later

/-- A run is empty, or an element and a run. -/
theorem kstar_cases {element : Language Char} {run : List Char} (elements : run ∈ element∗) :
    run = [] ∨ ∃ one ∈ element, ∃ rest ∈ element∗, run = one ++ rest := by
  obtain ⟨words, rfl, members⟩ := Language.mem_kstar.mp elements
  cases words with
  | nil => exact .inl rfl
  | cons one words =>
    have others : ∀ word ∈ words, word ∈ element := fun word listed => members word (List.mem_cons_of_mem _ listed)
    exact .inr ⟨one, members one List.mem_cons_self, words.flatten, Language.join_mem_kstar others, rfl⟩

theorem mem_oneOf {admits : Char → Prop} {word : List Char} :
    word ∈ oneOf admits ↔ ∃ char, admits char ∧ word = [char] := Iff.rfl

/-- The words of a text before a pattern are that text before the words of the pattern. -/
theorem mem_exactly_mul {text : String} {pattern : Language Char} {word : List Char} :
    word ∈ exactly text * pattern ↔ ∃ rest ∈ pattern, word = text.toList ++ rest := by
  rw [Language.mem_mul]
  constructor
  · rintro ⟨_, rfl, rest, member, rfl⟩
    exact ⟨rest, member, rfl⟩
  · rintro ⟨rest, member, rfl⟩
    exact ⟨_, rfl, rest, member, rfl⟩

theorem mem_oneOf_mul {admits : Char → Prop} {pattern : Language Char} {word : List Char} :
    word ∈ oneOf admits * pattern ↔ ∃ char rest, admits char ∧ rest ∈ pattern ∧ word = char :: rest := by
  rw [Language.mem_mul]
  constructor
  · rintro ⟨_, ⟨char, admitted, rfl⟩, rest, member, rfl⟩
    exact ⟨char, rest, admitted, member, rfl⟩
  · rintro ⟨char, rest, admitted, member, rfl⟩
    exact ⟨[char], ⟨char, admitted, rfl⟩, rest, member, rfl⟩

theorem mem_mul_exactly {text : String} {pattern : Language Char} {word : List Char} :
    word ∈ pattern * exactly text ↔ ∃ rest ∈ pattern, word = rest ++ text.toList := by
  rw [Language.mem_mul]
  constructor
  · rintro ⟨rest, member, _, rfl, rfl⟩
    exact ⟨rest, member, rfl⟩
  · rintro ⟨rest, member, rfl⟩
    exact ⟨rest, member, _, rfl, rfl⟩

theorem mem_stringElement {word : List Char} :
    word ∈ stringElement ↔
      (∃ char, (char ≠ '"' ∧ char ≠ '\\' ∧ char ≠ '\n') ∧ word = [char]) ∨ ∃ char, word = ['\\', char] := by
  unfold stringElement
  rw [Language.mem_add, mem_oneOf, mem_exactly_mul]
  refine or_congr_right ⟨?_, ?_⟩
  · rintro ⟨rest, ⟨char, -, rfl⟩ | rfl, rfl⟩
    · exact ⟨char, rfl⟩
    · exact ⟨'\n', rfl⟩
  · rintro ⟨char, rfl⟩
    by_cases newline : char = '\n'
    · exact ⟨['\n'], .inr rfl, by rw [newline]; rfl⟩
    · exact ⟨[char], .inl ⟨char, newline, rfl⟩, rfl⟩

theorem mem_characterElement {word : List Char} :
    word ∈ characterElement ↔
      (∃ char, (char ≠ '\'' ∧ char ≠ '\\' ∧ char ≠ '\n') ∧ word = [char]) ∨
        ∃ char, char ≠ '\n' ∧ word = ['\\', char] := by
  unfold characterElement
  rw [Language.mem_add, mem_oneOf, mem_exactly_mul]
  refine or_congr_right ⟨?_, ?_⟩
  · rintro ⟨rest, ⟨char, inLine, rfl⟩, rfl⟩
    exact ⟨char, inLine, rfl⟩
  · rintro ⟨char, inLine, rfl⟩
    exact ⟨[char], ⟨char, inLine, rfl⟩, rfl⟩

theorem mem_directiveElement {word : List Char} :
    word ∈ directiveElement ↔
      (∃ char, (char ≠ '\\' ∧ char ≠ '\n') ∧ word = [char]) ∨ (word = ['\\', '\r', '\n']) ∨
        ∃ char, word = ['\\', char] := by
  unfold directiveElement
  rw [Language.mem_add, Language.mem_add, mem_oneOf, mul_assoc, mem_exactly_mul, mem_exactly_mul, or_assoc]
  refine or_congr_right ⟨?_, ?_⟩
  · rintro (⟨rest, member, rfl⟩ | ⟨rest, ⟨char, -, rfl⟩, rfl⟩)
    · obtain ⟨front, optional, rfl⟩ := mem_mul_exactly.mp member
      rcases optional with rfl | rfl
      · exact .inr ⟨'\n', rfl⟩
      · exact .inl rfl
    · exact .inr ⟨char, rfl⟩
  · rintro (rfl | ⟨char, rfl⟩)
    · exact .inl ⟨['\r', '\n'], mem_mul_exactly.mpr ⟨['\r'], .inr rfl, rfl⟩, rfl⟩
    · by_cases newline : char = '\n'
      · exact .inl ⟨['\n'], mem_mul_exactly.mpr ⟨[], .inl rfl, rfl⟩, by rw [newline]; rfl⟩
      · exact .inr ⟨[char], ⟨char, newline, rfl⟩, rfl⟩

/-! ### Elements between marks -/

/-- An element between two marks is a plain character, which is not the mark, a backslash or a newline, or it is a
    backslash with one character. -/
structure Quoted (mark : Char) (element : Language Char) : Prop where
  notEscape : mark ≠ '\\'
  split : ∀ {one}, one ∈ element →
    (∃ char, (char ≠ mark ∧ char ≠ '\\' ∧ char ≠ '\n') ∧ one = [char]) ∨ ∃ char, one = ['\\', char]

theorem quoted_stringElement : Quoted '"' stringElement :=
  ⟨by decide, mem_stringElement.mp⟩

theorem quoted_characterElement : Quoted '\'' characterElement := by
  refine ⟨by decide, fun member => ?_⟩
  rcases mem_characterElement.mp member with plain | ⟨char, -, rfl⟩
  · exact .inl plain
  · exact .inr ⟨char, rfl⟩

namespace Quoted

variable {mark char escaped : Char} {element : Language Char} {one other text : List Char}

theorem not_nil (quoted : Quoted mark element) (member : one ∈ element) : ¬ one <+: [] := by
  rcases quoted.split member with ⟨char, -, rfl⟩ | ⟨char, rfl⟩ <;> simp

theorem eq_plain (quoted : Quoted mark element) (plain : char ≠ '\\') (member : one ∈ element)
    (front : one <+: char :: text) : one = [char] := by
  rcases quoted.split member with ⟨same, -, rfl⟩ | ⟨escaped, rfl⟩
  · simpa using front
  · exact absurd (List.cons_prefix_cons.mp front).1.symm plain

theorem eq_escape (quoted : Quoted mark element) (member : one ∈ element) (front : one <+: '\\' :: escaped :: text) :
    one = ['\\', escaped] := by
  rcases quoted.split member with ⟨char, ⟨-, plain, -⟩, rfl⟩ | ⟨char, rfl⟩
  · exact absurd (by simpa using front) plain
  · simpa using front

/-- No element begins with what is not plain, unless a backslash has a character behind it. -/
theorem not_front (quoted : Quoted mark element) (ends : (char = mark ∨ char = '\\') ∨ char = '\n')
    (notEscape : ∀ escaped rest, char = '\\' → text = escaped :: rest → False) (member : one ∈ element) :
    ¬ one <+: char :: text := by
  intro front
  rcases quoted.split member with ⟨same, ⟨notMark, plain, inLine⟩, rfl⟩ | ⟨escaped, rfl⟩
  · obtain rfl : same = char := by simpa using front
    rcases ends with (isMark | backslash) | newline
    · exact notMark isMark
    · exact plain backslash
    · exact inLine newline
  · obtain ⟨rfl, rest, rfl⟩ : '\\' = char ∧ [escaped] <+: text := by simpa using front
    exact notEscape escaped rest rfl rfl

/-- Two elements at one place are the same. -/
theorem alike (quoted : Quoted mark element) (first : one ∈ element) (second : other ∈ element) (front : one <+: text)
    (otherFront : other <+: text) : one = other := by
  obtain ⟨rest, rfl⟩ := front
  rcases quoted.split first with ⟨char, ⟨-, plain, -⟩, rfl⟩ | ⟨escaped, rfl⟩
  · exact (quoted.eq_plain plain second otherFront).symm
  · exact (quoted.eq_escape second otherFront).symm

end Quoted

/-! ### Growing runs -/

/-- The longest run behind an element makes the longest run with it, where every other way to begin at that
    place comes no further than the element. -/
theorem LongestRun.cons {element : Language Char} {text run : List Char} (behind : LongestRun element text run)
    (one : List Char) (member : one ∈ element)
    (forced : ∀ other ∈ element, other <+: one ++ text → other = one ∨
      ∀ rest ∈ element∗, other ++ rest <+: one ++ text → (other ++ rest).length ≤ one.length) :
    LongestRun element (one ++ text) (one ++ run) := by
  refine ⟨append_mem_kstar member behind.elements, (List.prefix_append_right_inj one).mpr behind.front, ?_⟩
  intro word elements front
  rcases kstar_cases elements with rfl | ⟨other, first, rest, others, rfl⟩
  · simp
  · rcases forced other first ((List.prefix_append other rest).trans front) with rfl | short
    · have rest_le := behind.longest rest others ((List.prefix_append_right_inj other).mp front)
      simp only [List.length_append]
      omega
    · have bounded := short rest others front
      simp only [List.length_append] at bounded ⊢
      omega

/-- Where no element stands at the front of a text, the longest run there is empty. -/
theorem LongestRun.nil {element : Language Char} {text : List Char}
    (blocked : ∀ other ∈ element, ¬ other <+: text) : LongestRun element text [] := by
  refine ⟨Language.nil_mem_kstar element, List.nil_prefix, ?_⟩
  intro word elements front
  rcases kstar_cases elements with rfl | ⟨other, first, rest, -, rfl⟩
  · simp
  · exact absurd ((List.prefix_append other rest).trans front) (blocked other first)

theorem longestRun_unique {element : Language Char} {text one other : List Char}
    (first : LongestRun element text one) (second : LongestRun element text other) : one = other := by
  have lengths : one.length = other.length :=
    Nat.le_antisymm (second.longest one first.elements first.front)
      (first.longest other second.elements second.front)
  exact (List.prefix_of_prefix_length_le first.front second.front lengths.le).eq_of_length lengths

/-! ### Bodies -/

theorem longestRun_takeWhile (admits : Char → Prop) (test : Char → Bool)
    (agree : ∀ char, test char = true ↔ admits char) (text : List Char) :
    LongestRun (oneOf admits) text (text.takeWhile test) := by
  induction text with
  | nil =>
    refine .nil ?_
    rintro _ ⟨char, -, rfl⟩
    simp
  | cons char rest ih =>
    by_cases holds : test char = true
    · rw [List.takeWhile_cons_of_pos holds]
      refine ih.cons [char] ⟨char, (agree char).mp holds, rfl⟩ ?_
      rintro _ ⟨other, -, rfl⟩ front
      exact .inl (by simpa using front)
    · rw [List.takeWhile_cons_of_neg holds]
      refine .nil ?_
      rintro _ ⟨other, admitted, rfl⟩ front
      obtain rfl : other = char := by simpa using front
      exact holds ((agree other).mpr admitted)

theorem longestRun_stringBody (text : List Char) : LongestRun stringElement text (stringBody text).1 := by
  fun_induction stringBody text with
  | case1 => exact .nil fun other member => quoted_stringElement.not_nil member
  | case2 escaped text body rest split ih =>
    rw [split] at ih
    refine ih.cons ['\\', escaped] (mem_stringElement.mpr (.inr ⟨escaped, rfl⟩)) fun other member front => ?_
    exact .inl (quoted_stringElement.eq_escape member front)
  | case3 char text notEscape ends =>
    simp only [Bool.or_eq_true, decide_eq_true_eq] at ends
    exact .nil fun other member => quoted_stringElement.not_front ends notEscape member
  | case4 char text notEscape goes body rest split ih =>
    rw [split] at ih
    simp only [Bool.or_eq_true, decide_eq_true_eq, not_or] at goes
    refine ih.cons [char] (mem_stringElement.mpr (.inl ⟨char, ⟨goes.1.1, goes.1.2, goes.2⟩, rfl⟩)) ?_
    exact fun other member front => .inl (quoted_stringElement.eq_plain goes.1.2 member front)

theorem longestRun_characterBody (text : List Char) :
    LongestRun characterElement text (characterBody text).1 := by
  fun_induction characterBody text with
  | case1 => exact .nil fun other member => quoted_characterElement.not_nil member
  | case2 text =>
    -- A backslash at the end of a line escapes nothing here.
    refine .nil fun other member front => ?_
    rcases mem_characterElement.mp member with ⟨char, ⟨-, plain, -⟩, rfl⟩ | ⟨char, inLine, rfl⟩
    · exact plain (by simpa using front)
    · exact inLine (by simpa using front)
  | case3 escaped text inLine body rest split ih =>
    rw [split] at ih
    refine ih.cons ['\\', escaped] (mem_characterElement.mpr (.inr ⟨escaped, inLine, rfl⟩)) fun other member front => ?_
    exact .inl (quoted_characterElement.eq_escape member front)
  | case4 char text notEscape ends =>
    simp only [Bool.or_eq_true, decide_eq_true_eq] at ends
    exact .nil fun other member => quoted_characterElement.not_front ends notEscape member
  | case5 char text notEscape goes body rest split ih =>
    rw [split] at ih
    simp only [Bool.or_eq_true, decide_eq_true_eq, not_or] at goes
    refine ih.cons [char] (mem_characterElement.mpr (.inl ⟨char, ⟨goes.1.1, goes.1.2, goes.2⟩, rfl⟩)) ?_
    exact fun other member front => .inl (quoted_characterElement.eq_plain goes.1.2 member front)

/-- A newline begins no element of a directive. -/
theorem directive_newline {other text : List Char} (member : other ∈ directiveElement) :
    ¬ other <+: '\n' :: text := by
  intro front
  rcases mem_directiveElement.mp member with ⟨char, ⟨-, inLine⟩, rfl⟩ | rfl | ⟨char, rfl⟩
  · exact inLine (by simpa using front)
  · simp at front
  · simp at front

theorem directive_backslash {other : List Char} (member : other ∈ directiveElement) : ¬ other <+: ['\\'] := by
  intro front
  rcases mem_directiveElement.mp member with ⟨char, ⟨plain, -⟩, rfl⟩ | rfl | ⟨char, rfl⟩
  · exact plain (by simpa using front)
  · simp at front
  · simp at front

theorem eq_of_directive_plain {other text : List Char} {char : Char} (plain : char ≠ '\\')
    (member : other ∈ directiveElement) (front : other <+: char :: text) : other = [char] := by
  rcases mem_directiveElement.mp member with ⟨same, -, rfl⟩ | rfl | ⟨escaped, rfl⟩
  · simpa using front
  · exact absurd (List.cons_prefix_cons.mp front).1.symm plain
  · exact absurd (List.cons_prefix_cons.mp front).1.symm plain

/-- Two elements of a directive begin with a backslash and a carriage return, and others differ. -/
theorem eq_of_directive_escape {other text : List Char} {escaped : Char} (member : other ∈ directiveElement)
    (front : other <+: '\\' :: escaped :: text) :
    other = ['\\', escaped] ∨ (other = ['\\', '\r', '\n'] ∧ escaped = '\r' ∧ ∃ behind, text = '\n' :: behind) := by
  rcases mem_directiveElement.mp member with ⟨char, ⟨plain, -⟩, rfl⟩ | rfl | ⟨char, rfl⟩
  · exact absurd (by simpa using front) plain
  · obtain ⟨rfl, behind, rfl⟩ : '\r' = escaped ∧ ['\n'] <+: text := by simpa using front
    exact .inr ⟨rfl, rfl, behind, rfl⟩
  · exact .inl (by simpa using front)

/-- The body of a directive is the longest run of its elements, or takes a lone backslash at the end of the
    text as well. -/
theorem directiveBody_run (text : List Char) :
    ∃ run, LongestRun directiveElement text run ∧
      (((directiveBody text).1 = run ∧ (directiveBody text).2 ≠ ['\\']) ∨
        ((directiveBody text).1 = run ++ ['\\'] ∧ (directiveBody text).2 = [])) := by
  fun_induction directiveBody text with
  | case1 =>
    refine ⟨[], .nil fun other member front => ?_, .inl ⟨rfl, by simp⟩⟩
    rcases mem_directiveElement.mp member with ⟨char, -, rfl⟩ | rfl | ⟨char, rfl⟩ <;> simp at front
  | case2 text body rest split ih =>
    rw [split] at ih
    obtain ⟨run, longest, taken⟩ := ih
    refine ⟨['\\', '\r', '\n'] ++ run,
      longest.cons ['\\', '\r', '\n'] (mem_directiveElement.mpr (.inr (.inl rfl))) ?_, by simpa using taken⟩
    intro other member front
    rcases eq_of_directive_escape member front with rfl | ⟨rfl, -⟩
    · -- A backslash and a carriage return are an element too, but nothing goes on at the newline.
      refine .inr fun later elements whole => ?_
      have empty : LongestRun directiveElement ('\n' :: text) [] := .nil fun _ member => directive_newline member
      have short := empty.longest later elements (by simpa using whole)
      simp only [List.length_append, List.length_cons, List.length_nil] at short ⊢
      omega
    · exact .inl rfl
  | case3 escaped text notContinued body rest split ih =>
    rw [split] at ih
    obtain ⟨run, longest, taken⟩ := ih
    refine ⟨['\\', escaped] ++ run,
      longest.cons ['\\', escaped] (mem_directiveElement.mpr (.inr (.inr ⟨escaped, rfl⟩))) ?_, by simpa using taken⟩
    intro other member front
    rcases eq_of_directive_escape member front with rfl | ⟨-, rfl, behind, rfl⟩
    · exact .inl rfl
    · exact absurd rfl (notContinued behind rfl)
  | case4 text notContinued notEscape =>
    exact ⟨[], .nil fun other member => directive_newline member, .inl ⟨rfl, by simp⟩⟩
  | case5 char text notContinued notEscape inLine body rest split ih =>
    rw [split] at ih
    obtain ⟨run, longest, taken⟩ := ih
    by_cases backslash : char = '\\'
    · cases text with
      | cons escaped behind => exact absurd rfl (notEscape escaped behind backslash)
      | nil =>
        subst backslash
        obtain ⟨rfl, rfl⟩ : [] = body ∧ [] = rest := by simpa [directiveBody] using split
        exact ⟨[], .nil fun other member => directive_backslash member, .inr ⟨rfl, rfl⟩⟩
    · exact ⟨[char] ++ run,
        longest.cons [char] (mem_directiveElement.mpr (.inl ⟨char, ⟨backslash, inLine⟩, rfl⟩)) fun other member front =>
          .inl (eq_of_directive_plain backslash member front), by simpa using taken⟩

end Token

end ActorSurface
