import ActorSurface.Proofs.Text.Separators

/-!
Newlines between bytes and characters. A text has a newline just where its bytes have one (`newline_mem_encode`),
and so has the text that shows a byte string, malformed or not (`newline_mem_lossy`): no ill-formed part hides a
newline, and none makes one. A line ends with its only newline (`IsLine`).
-/

namespace ActorSurface

namespace Utf8

/-- The byte of a newline. -/
def newline : UInt8 := 0x0A

/-- Bytes that end with their only newline. -/
def IsLine (octets : Bytes) : Prop :=
  ∃ text, newline ∉ text ∧ octets = text ++ [newline]

instance (octets : Bytes) : Decidable (IsLine octets) :=
  decidable_of_iff (newline ∉ octets.dropLast ∧ octets.getLast? = some newline) (by
    constructor
    · rintro ⟨unbroken, ends⟩
      exact ⟨octets.dropLast, unbroken, (List.dropLast_append_getLast? newline ends).symm⟩
    · rintro ⟨text, unbroken, rfl⟩
      simpa using unbroken)

theorem ofAscii_newline : ofAscii newline = '\n' := by decide

/-- Of the characters, only a newline has the byte of a newline. -/
theorem newline_mem_utf8EncodeChar {char : Char} : newline ∈ String.utf8EncodeChar char ↔ char = '\n' := by
  rw [← ofAscii_newline]
  exact mem_utf8EncodeChar (by decide)

theorem newline_mem_encode {text : String} : newline ∈ encode text ↔ '\n' ∈ text.toList := by
  rw [← ofAscii_newline]
  exact mem_encode (by decide)

/-- A byte string is shown with a newline where it has one. -/
theorem newline_mem_lossy {octets : Bytes} : '\n' ∈ (lossy octets).toList ↔ newline ∈ octets := by
  rw [← ofAscii_newline]
  exact mem_lossy (by decide)

/-- A text behind which a newline is put is a line where it has no newline itself. -/
theorem isLine_encode {text : String} : IsLine (encode (text ++ "\n")) ↔ '\n' ∉ text.toList := by
  have ended : encode (text ++ "\n") = encode text ++ [newline] := encode_append text "\n"
  rw [ended, ← newline_mem_encode]
  constructor
  · rintro ⟨line, unbroken, same⟩
    rwa [(List.append_inj' same rfl).1]
  · intro unbroken
    exact ⟨encode text, unbroken, rfl⟩

theorem newline_not_mem_digits (number : Nat) : '\n' ∉ Nat.toDigits 10 number := by
  intro listed
  have digit := Nat.isDigit_of_mem_toDigits (by decide) (by decide) listed
  exact absurd digit (by decide)

end Utf8

end ActorSurface
