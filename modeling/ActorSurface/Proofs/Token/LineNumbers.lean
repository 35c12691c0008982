import ActorSurface.Proofs.Text.LineTable
import ActorSurface.Proofs.Text.Lines
import ActorSurface.Proofs.Token.Lookahead

/-!
Line numbers by byte offset. The line of an offset is one more than the number of newline bytes in front of it
(`lineOf_eq_count`), at the start of a line, at a newline, inside a character and behind the end alike. The table of line
starts has the offset behind each newline byte (`mem_starts_iff`), and the line is the one that any binary search of it
gives, whether it finds the offset or tells where it belongs (`indexes_iff`).
-/

namespace ActorSurface

open Utf8 (newline)

namespace LineTable

/-! ### The starts, by bytes -/

/-- The offsets behind the newline bytes of a byte string that stands at some place. -/
def startsIn (place : Nat) : Bytes → List Nat
  | [] => []
  | octet :: octets =>
    if octet = newline then (place + 1) :: startsIn (place + 1) octets else startsIn (place + 1) octets

theorem startsIn_append (place : Nat) (octets more : Bytes) :
    startsIn place (octets ++ more) = startsIn place octets ++ startsIn (place + octets.length) more := by
  induction octets generalizing place with
  | nil => simp [startsIn]
  | cons octet octets ih =>
    have shifted : place + 1 + octets.length = place + (octets.length + 1) := by omega
    simp only [List.cons_append, startsIn, ih, List.length_cons, shifted]
    split_ifs <;> rfl

theorem startsIn_of_not_mem {octets : Bytes} (absent : newline ∉ octets) (place : Nat) : startsIn place octets = [] := by
  induction octets generalizing place with
  | nil => rfl
  | cons octet octets ih =>
    simp only [List.mem_cons, not_or] at absent
    rw [startsIn, if_neg (Ne.symm absent.1), ih absent.2]

/-- The starts behind the first are those behind the newline bytes. -/
theorem startsBehind_eq (place : Nat) (text : List Char) :
    startsBehind place text = startsIn place (text.flatMap String.utf8EncodeChar) := by
  induction text generalizing place with
  | nil => rfl
  | cons char text ih =>
    rw [List.flatMap_cons, startsIn_append, String.length_utf8EncodeChar, ← ih, startsBehind]
    by_cases newline : char = '\n'
    · subst newline
      rfl
    · have absent := mt Utf8.newline_mem_utf8EncodeChar.mp newline
      rw [if_neg newline, startsIn_of_not_mem absent, List.nil_append]

theorem mem_startsIn_iff {place start : Nat} {octets : Bytes} :
    start ∈ startsIn place octets ↔ ∃ position, octets[position]? = some newline ∧ start = place + position + 1 := by
  induction octets generalizing place with
  | nil => simp [startsIn]
  | cons octet octets ih =>
    -- The position is the first one, or it is one further than in the rest.
    have later : (∃ position, octets[position]? = some newline ∧ start = place + 1 + position + 1) ↔
        ∃ position, (octet :: octets)[position + 1]? = some newline ∧ start = place + (position + 1) + 1 := by
      simp only [List.getElem?_cons_succ, Nat.add_assoc, Nat.add_comm 1]
    rw [startsIn]
    split_ifs with here
    · rw [List.mem_cons, ih, later]
      constructor
      · rintro (rfl | ⟨position, found, rfl⟩)
        · exact ⟨0, by simp [here], rfl⟩
        · exact ⟨position + 1, found, rfl⟩
      · rintro ⟨position, found, rfl⟩
        cases position with
        | zero => exact .inl rfl
        | succ position => exact .inr ⟨position, found, rfl⟩
    · rw [ih, later]
      constructor
      · rintro ⟨position, found, rfl⟩
        exact ⟨position + 1, found, rfl⟩
      · rintro ⟨position, found, rfl⟩
        cases position with
        | zero => exact absurd (by simpa using found) here
        | succ position => exact ⟨position, found, rfl⟩

/-- As many lines start behind a place and up to an offset as newline bytes are between the two. -/
theorem countP_startsIn (place offset : Nat) (octets : Bytes) :
    (startsIn place octets).countP (· ≤ offset) = (octets.take (offset - place)).count newline := by
  induction octets generalizing place with
  | nil => simp [startsIn]
  | cons octet octets ih =>
    have rest := ih (place + 1)
    by_cases beyond : offset ≤ place
    · have none : offset - (place + 1) = 0 ∧ offset - place = 0 := by omega
      rw [none.1] at rest
      have later : ¬ place + 1 ≤ offset := by omega
      rw [none.2, startsIn]
      split_ifs <;> simp [later, rest]
    · have one : offset - place = offset - (place + 1) + 1 := by omega
      have here : place + 1 ≤ offset := by omega
      rw [one, List.take_succ_cons, startsIn]
      split_ifs with newline
      · simp [newline, here, rest]
      · simp [newline, rest]

/-- The line of an offset is told by the newline bytes in front of it. -/
theorem lineAt_eq_count (text : String) (offset : Nat) :
    (ofText text.toList).lineAt offset = 1 + ((Utf8.encode text).take offset).count newline := by
  rw [lineAt_ofText, startsBehind_eq, countP_startsIn]
  rfl

/-- Lines start at the beginning, and behind each newline byte. -/
theorem mem_starts_iff {text : String} {start : Nat} :
    start ∈ (ofText text.toList).starts.toList ↔
      start = 0 ∨ ∃ position, (Utf8.encode text)[position]? = some newline ∧ start = position + 1 := by
  change start ∈ 0 :: startsBehind 0 text.toList ↔ _
  rw [List.mem_cons, startsBehind_eq, mem_startsIn_iff]
  simp [Utf8.encode]

/-! ### Binary search -/

/-- The index that a binary search of ascending starts leads to: that of the offset, where it is found, or the one before
    the place at which it belongs. -/
inductive Indexes (starts : List Nat) (offset : Nat) : Nat → Prop
  | found {index : Nat} : starts[index]? = some offset → Indexes starts offset index
  | inserted {index : Nat} : index < starts.length →
      (∀ earlier start, earlier ≤ index → starts[earlier]? = some start → start < offset) →
      (∀ later start, index < later → starts[later]? = some start → offset < start) → Indexes starts offset index

/-- Behind the index there are no starts at or before the offset, and up to it there are no others. -/
theorem Indexes.countP_eq {starts : List Nat} {offset index : Nat} (ordered : starts.Pairwise (· < ·))
    (indexes : Indexes starts offset index) : starts.countP (· ≤ offset) = index + 1 := by
  have rises : ∀ (one other : Nat) (bound : other < starts.length) (order : one < other),
      starts[one] < starts[other] :=
    fun one other bound order => List.pairwise_iff_getElem.mp ordered one other (by omega) bound order
  cases indexes with
  | found here =>
    obtain ⟨bound, rfl⟩ := List.getElem?_eq_some_iff.mp here
    refine countP_of_place (by omega) ?_ ?_
    · intro earlier inside lower
      by_cases same : earlier = index
      · subst same
        exact Nat.le_refl _
      · exact Nat.le_of_lt (rises earlier index bound (by omega))
    · intro later inside higher
      exact rises index later inside (by omega)
  | inserted bound below above =>
    refine countP_of_place (by omega) ?_ ?_
    · intro earlier inside lower
      exact Nat.le_of_lt (below earlier _ (by omega) (List.getElem?_eq_getElem inside))
    · intro later inside higher
      exact above later _ (by omega) (List.getElem?_eq_getElem inside)

theorem Indexes.cons {starts : List Nat} {offset index first : Nat} (earlier : first < offset)
    (indexes : Indexes starts offset index) : Indexes (first :: starts) offset (index + 1) := by
  cases indexes with
  | found here => exact .found here
  | inserted bound below above =>
    refine .inserted (by simpa using bound) ?_ ?_
    · intro place start lower here
      cases place with
      | zero =>
        cases here
        exact earlier
      | succ place => exact below place start (by omega) here
    · intro place start higher here
      cases place with
      | zero => omega
      | succ place => exact above place start (by omega) here

/-- Where all others are behind the offset, a search leads to the first. -/
theorem Indexes.first {starts : List Nat} {offset first : Nat} (early : first ≤ offset)
    (behind : ∀ start ∈ starts, offset < start) : Indexes (first :: starts) offset 0 := by
  by_cases same : first = offset
  · exact .found (by simp [same])
  · refine .inserted (by simp) ?_ ?_
    · intro place start lower here
      obtain rfl : place = 0 := by omega
      cases here
      omega
    · intro place start higher here
      cases place with
      | zero => omega
      | succ place => exact behind start (List.mem_of_getElem? here)

/-- A search of ascending starts leads somewhere, if the first is not behind the offset. -/
theorem exists_indexes {first offset : Nat} {starts : List Nat} (ordered : (first :: starts).Pairwise (· < ·))
    (early : first ≤ offset) : ∃ index, Indexes (first :: starts) offset index := by
  induction starts generalizing first with
  | nil => exact ⟨0, .first early (by simp)⟩
  | cons second starts ih =>
    have rises : first < second := List.rel_of_pairwise_cons ordered List.mem_cons_self
    by_cases next : second ≤ offset
    · obtain ⟨index, indexes⟩ := ih ordered.of_cons next
      exact ⟨index + 1, indexes.cons (by omega)⟩
    · refine ⟨0, .first early ?_⟩
      intro start listed
      rcases List.mem_cons.mp listed with rfl | later
      · omega
      · have := List.rel_of_pairwise_cons ordered.of_cons later
        omega

/-- The line of an offset is the one that a search of the starts leads to. -/
theorem indexes_iff (text : List Char) (offset index : Nat) :
    Indexes (ofText text).starts.toList offset index ↔ (ofText text).lineAt offset = index + 1 := by
  have ordered := ordered_starts text
  rw [lineAt_eq_countP]
  constructor
  · intro indexes
    exact indexes.countP_eq ordered
  · intro count
    obtain ⟨reached, indexes⟩ := exists_indexes ordered (Nat.zero_le offset)
    have same := indexes.countP_eq ordered
    obtain rfl : reached = index := by
      change (ofText text).starts.toList.countP (· ≤ offset) = reached + 1 at same
      omega
    exact indexes

end LineTable

namespace Token

namespace Cursor

/-- Whatever a cursor is asked, its lines stay. -/
theorem lines_ask (cursor : Cursor) (query : Query) : (cursor.ask query).2.lines = cursor.lines := by
  have peeked : cursor.peek.2.lines = cursor.lines := by
    rcases cursor.peek_cases with ⟨-, -, -, -, lines⟩ | ⟨-, -, same⟩
    · exact lines
    · rw [same, lines_next]
  cases query with
  | next => exact cursor.lines_next
  | peek => exact peeked
  | check accepted => exact peeked
  | lineOf offset => rfl
  | failureAt offset message => rfl

theorem lines_behind (cursor : Cursor) (queries : List Query) : (cursor.behind queries).lines = cursor.lines := by
  induction queries generalizing cursor with
  | nil => rfl
  | cons query queries ih => rw [behind, ih, lines_ask]

/-- Whatever a cursor was asked before, the line of an offset is one more than the number of newline bytes in front of
    it, wherever it is. It is the line to which a binary search of the line starts leads, which are the beginning and the
    offset behind each newline byte. So it never falls, is at least 1, and never more than one above the number of
    newlines. -/
theorem lineOf_counts_newlines (text : String) (queries : List Query) (offset : Nat) :
    let cursor := (ofText text.toList).behind queries
    let octets := Utf8.encode text
    let starts := cursor.lines.starts.toList
    (cursor.ask (.lineOf offset)).1 = .line (1 + (octets.take offset).count newline) ∧
      (∀ start, start ∈ starts ↔ start = 0 ∨ ∃ position, octets[position]? = some newline ∧ start = position + 1) ∧
      (∀ index, LineTable.Indexes starts offset index ↔ cursor.lineOf offset = index + 1) ∧
      Monotone cursor.lineOf ∧ 1 ≤ cursor.lineOf offset ∧ cursor.lineOf offset ≤ 1 + octets.count newline := by
  intro cursor octets starts
  have lines : cursor.lines = .ofText text.toList := lines_behind _ queries
  have counted : ∀ place, cursor.lineOf place = 1 + (octets.take place).count newline := by
    intro place
    rw [lineOf, lines]
    exact LineTable.lineAt_eq_count text place
  refine ⟨?_, ?_, ?_, ?_, ?_, ?_⟩
  · rw [← counted]
    rfl
  · intro start
    show start ∈ cursor.lines.starts.toList ↔ _
    rw [lines]
    exact LineTable.mem_starts_iff
  · intro index
    show LineTable.Indexes cursor.lines.starts.toList offset index ↔ cursor.lines.lineAt offset = index + 1
    rw [lines]
    exact LineTable.indexes_iff text.toList offset index
  · intro one other order
    rw [counted, counted]
    have := (List.take_prefix_take_left order : octets.take one <+: octets.take other).sublist.count_le newline
    omega
  · rw [counted]
    omega
  · rw [counted]
    have := (List.take_sublist offset octets).count_le newline
    omega

end Cursor

end Token

end ActorSurface
