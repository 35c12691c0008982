import ActorSurface.Text.Utf8

/-!
Operations that do not always have a result. The functions of the model answer something whatever they are
given: an element that is not there stays unchanged, a difference stops at zero, a list is cut wherever one
asks. Here the same operations trap instead, each where it has nothing to answer, and each comes with the
condition under which it does not.
-/

namespace ActorSurface

/-- What is wrong where an operation has no result: a counter beyond the numbers it can hold or below zero,
    an element or a part of a list that is not there, or a place in a text that does not stand between two
    of its characters. -/
inductive Trap where
  | overflow
  | belowZero
  | element
  | slice
  | boundary
  deriving DecidableEq, Repr

namespace Trap

variable {α : Type}

/-- The next number, where a counter holds numbers up to `most`. -/
def increment (most count : Nat) : Except Trap Nat :=
  if count < most then .ok (count + 1) else .error .overflow

theorem increment_of_lt {most count : Nat} (room : count < most) : increment most count = .ok (count + 1) :=
  if_pos room

/-- The number before a number. -/
def decrement : Nat → Except Trap Nat
  | 0 => .error .belowZero
  | count + 1 => .ok count

/-- The part of a list from a position on, which may be its end. -/
def sliceFrom (start : Nat) (list : List α) : Except Trap (List α) :=
  if start ≤ list.length then .ok (list.drop start) else .error .slice

theorem sliceFrom_of_le {start : Nat} {list : List α} (inside : start ≤ list.length) :
    sliceFrom start list = .ok (list.drop start) :=
  if_pos inside

/-- A text cut behind a number of bytes. -/
def bump : Nat → List Char → Except Trap (List Char × List Char)
  | 0, text => .ok ([], text)
  | _ + 1, [] => .error .boundary
  | count + 1, char :: text =>
    if char.utf8Size ≤ count + 1 then
      (bump (count + 1 - char.utf8Size) text).map fun (front, rest) => (char :: front, rest)
    else .error .boundary

/-- A text is cut behind the bytes of any front of it. -/
theorem bump_append (front rest : List Char) : bump (Utf8.size front) (front ++ rest) = .ok (front, rest) := by
  induction front with
  | nil => rw [Utf8.size, List.nil_append, bump]
  | cons char front ih =>
    have some_byte := char.utf8Size_pos
    obtain ⟨count, size⟩ : ∃ count, Utf8.size (char :: front) = count + 1 :=
      Nat.exists_eq_add_one.mpr (by simp only [Utf8.size]; omega)
    have behind : count + 1 - char.utf8Size = Utf8.size front := by
      rw [← size, Utf8.size]
      omega
    have inside : char.utf8Size ≤ count + 1 := by
      rw [← size, Utf8.size]
      omega
    rw [size, List.cons_append, bump, if_pos inside, behind, ih]
    rfl

example : bump 1 ['é', 'a'] = .error .boundary := rfl

end Trap

end ActorSurface
