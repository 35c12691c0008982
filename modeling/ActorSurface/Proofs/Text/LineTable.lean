import ActorSurface.Text.LineTable
import Mathlib.Data.List.Basic

/-!
The line of an offset is one more than the number of newlines in front of it. The search in a table of line starts
counts the starts up to the offset (`search_eq_countP`), and behind the first of them there is one for each newline
(`length_startsBehind`); so what stands behind a stretch of text begins on the line that its newlines make
(`lineAt_size`).
-/

namespace ActorSurface

/-- The number of newlines in a stretch of text. -/
def newlines (text : List Char) : Nat :=
  text.count '\n'

@[simp]
theorem newlines_nil : newlines [] = 0 := rfl

@[simp]
theorem newlines_append (text more : List Char) : newlines (text ++ more) = newlines text + newlines more :=
  List.count_append

@[simp]
theorem newlines_newline (text : List Char) : newlines ('\n' :: text) = newlines text + 1 :=
  List.count_cons_self

theorem newlines_cons_of_ne {char : Char} (other : char ≠ '\n') (text : List Char) :
    newlines (char :: text) = newlines text :=
  List.count_cons_of_ne other

namespace LineTable

/-! ### The search -/

/-- In ascending starts of which just the first `place` are at or before an offset, as many are counted. -/
theorem countP_of_place {starts : List Nat} {offset place : Nat} (fits : place ≤ starts.length)
    (below : ∀ index (inside : index < starts.length), index < place → starts[index] ≤ offset)
    (above : ∀ index (inside : index < starts.length), place ≤ index → offset < starts[index]) :
    starts.countP (· ≤ offset) = place := by
  have front : (starts.take place).countP (· ≤ offset) = place := by
    rw [List.countP_eq_length.mpr]
    · exact List.length_take_of_le fits
    · intro start listed
      obtain ⟨index, inside, rfl⟩ := List.mem_take_iff_getElem.mp listed
      simpa using below index (by omega) (by omega)
  have behind : (starts.drop place).countP (· ≤ offset) = 0 := by
    rw [List.countP_eq_zero]
    intro start listed
    obtain ⟨index, inside, rfl⟩ := List.mem_drop_iff_getElem.mp listed
    simpa using above (place + index) (by omega) (by omega)
  have whole := congrArg (List.countP (· ≤ offset)) (List.take_append_drop place starts)
  rw [List.countP_append, front, behind] at whole
  exact whole.symm

theorem getElem_lt_of_ordered {starts : Array Nat} (ordered : starts.toList.Pairwise (· < ·)) {one other : Nat}
    (bound : other < starts.size) (order : one < other) : starts[one] < starts[other] :=
  List.pairwise_iff_getElem.mp ordered one other (Nat.lt_trans order bound) bound order

/-- The search counts the starts at or before an offset. What it keeps to is that all starts below the interval are
    such, and none from its end on. -/
theorem search_eq_countP (starts : Array Nat) (ordered : starts.toList.Pairwise (· < ·)) (offset low high : Nat)
    (fits : low ≤ high) (inside : high ≤ starts.size)
    (below : ∀ index (bound : index < starts.size), index < low → starts[index] ≤ offset)
    (above : ∀ index (bound : index < starts.size), high ≤ index → offset < starts[index]) :
    search starts offset low high = starts.toList.countP (· ≤ offset) := by
  fun_induction search starts offset low high with
  | case1 low high goes middle start found early ih =>
    obtain ⟨bound, rfl⟩ := Array.getElem?_eq_some_iff.mp found
    refine ih (by omega) inside ?_ above
    intro index indexBound lower
    rcases Nat.lt_or_eq_of_le (Nat.le_of_lt_succ lower) with before | rfl
    · exact Nat.le_of_lt (Nat.lt_of_lt_of_le (getElem_lt_of_ordered ordered bound before) early)
    · exact early
  | case2 low high goes middle start found late ih =>
    obtain ⟨bound, rfl⟩ := Array.getElem?_eq_some_iff.mp found
    refine ih (by omega) (by omega) below ?_
    intro index indexBound higher
    rcases Nat.lt_or_eq_of_le higher with behind | rfl
    · exact Nat.lt_trans (Nat.lt_of_not_le late) (getElem_lt_of_ordered ordered indexBound behind)
    · exact Nat.lt_of_not_le late
  | case3 low high goes middle missing =>
    have := Array.getElem?_eq_none_iff.mp missing
    omega
  | case4 low high ends =>
    obtain rfl : low = high := by omega
    refine (countP_of_place (by simpa using inside) ?_ ?_).symm
    · intro index bound lower
      simpa using below index (by simpa using bound) lower
    · intro index bound higher
      simpa using above index (by simpa using bound) higher

/-! ### The table of a text -/

theorem lt_of_mem_startsBehind {place start : Nat} {text : List Char} (listed : start ∈ startsBehind place text) :
    place < start := by
  induction text generalizing place with
  | nil => cases listed
  | cons char text ih =>
    have := char.utf8Size_pos
    simp only [startsBehind] at listed
    split at listed
    · rcases List.mem_cons.mp listed with rfl | later
      · omega
      · have := ih later
        omega
    · have := ih listed
      omega

theorem ordered_startsBehind (place : Nat) (text : List Char) : (startsBehind place text).Pairwise (· < ·) := by
  induction text generalizing place with
  | nil => exact .nil
  | cons char text ih =>
    simp only [startsBehind]
    split
    · exact .cons (fun start listed => lt_of_mem_startsBehind listed) (ih _)
    · exact ih _

theorem startsBehind_append (place : Nat) (text more : List Char) :
    startsBehind place (text ++ more) = startsBehind place text ++ startsBehind (place + Utf8.size text) more := by
  induction text generalizing place with
  | nil => rfl
  | cons char text ih =>
    simp only [List.cons_append, startsBehind, ih, Utf8.size, Nat.add_assoc]
    split <;> rfl

theorem le_of_mem_startsBehind {place start : Nat} {text : List Char} (listed : start ∈ startsBehind place text) :
    start ≤ place + Utf8.size text := by
  induction text generalizing place with
  | nil => cases listed
  | cons char text ih =>
    simp only [startsBehind, Utf8.size] at listed ⊢
    split at listed
    · rcases List.mem_cons.mp listed with rfl | later
      · omega
      · have := ih later
        omega
    · have := ih listed
      omega

/-- A line starts behind each newline. -/
theorem length_startsBehind (place : Nat) (text : List Char) : (startsBehind place text).length = newlines text := by
  induction text generalizing place with
  | nil => rfl
  | cons char text ih =>
    by_cases newline : char = '\n'
    · subst newline
      simp [startsBehind, ih]
    · simp [startsBehind, newline, ih, newlines_cons_of_ne newline]

theorem ordered_starts (text : List Char) : (ofText text).starts.toList.Pairwise (· < ·) :=
  .cons (fun _ listed => lt_of_mem_startsBehind listed) (ordered_startsBehind 0 text)

/-- The line of an offset is the number of line starts at or before it. -/
theorem lineAt_eq_countP (text : List Char) (offset : Nat) :
    (ofText text).lineAt offset = (ofText text).starts.toList.countP (· ≤ offset) := by
  rw [lineAt]
  refine search_eq_countP _ (ordered_starts text) offset 0 _ (Nat.zero_le _) (Nat.le_refl _) ?_ ?_
  · intro index bound lower
    omega
  · intro index bound higher
    omega

/-- The first line starts at the beginning. -/
theorem lineAt_ofText (text : List Char) (offset : Nat) :
    (ofText text).lineAt offset = 1 + (startsBehind 0 text).countP (· ≤ offset) := by
  rw [lineAt_eq_countP]
  change (0 :: startsBehind 0 text).countP (· ≤ offset) = _
  simp [Nat.add_comm]

/-- Every offset lies on a line from the first to the one behind the last newline. -/
theorem lineAt_bounds (text : List Char) (offset : Nat) :
    1 ≤ (ofText text).lineAt offset ∧ (ofText text).lineAt offset ≤ 1 + newlines text := by
  have fewer : (startsBehind 0 text).countP (· ≤ offset) ≤ newlines text := by
    rw [← length_startsBehind 0 text]
    exact List.countP_le_length
  rw [lineAt_ofText]
  omega

/-- What stands behind a stretch of text begins on the line that the newlines of that stretch make. -/
theorem lineAt_size (front behind : List Char) :
    (ofText (front ++ behind)).lineAt (Utf8.size front) = 1 + newlines front := by
  have earlier : (startsBehind 0 front).countP (· ≤ Utf8.size front) = (startsBehind 0 front).length := by
    rw [List.countP_eq_length]
    intro start listed
    simpa using le_of_mem_startsBehind listed
  have later : (startsBehind (0 + Utf8.size front) behind).countP (· ≤ Utf8.size front) = 0 := by
    rw [List.countP_eq_zero]
    intro start listed
    have := lt_of_mem_startsBehind listed
    simp only [decide_eq_true_eq]
    omega
  rw [lineAt_ofText, startsBehind_append, List.countP_append, earlier, later, length_startsBehind]
  rfl

end LineTable

end ActorSurface
