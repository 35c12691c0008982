import ActorSurface.Text.Utf8
import Mathlib.Data.List.Forall2

/-!
Byte strings that are well-formed throughout. They are the bytes of the texts (`decode?_eq_some_iff`): strict decoding
reads a text back from its bytes, lossy decoding shows it as it is (`lossy_encode`), and no two byte strings decode to
the same text.
-/

namespace ActorSurface

namespace Utf8

theorem encode_append (text more : String) : encode (text ++ more) = encode text ++ encode more := by
  simp [encode]

theorem bytes_chunks (octets : Bytes) : (chunks octets).flatMap Chunk.bytes = octets := by
  fun_induction chunks octets with
  | case1 => rfl
  | case2 lead octets cut ih => rw [List.flatMap_cons, ih, Chunk.bytes_append_rest]

theorem toNat_val_ofNat {value : Nat} (valid : value.isValidChar) : (Char.ofNat value).val.toNat = value := by
  rw [Char.ofNat, dif_pos valid]
  rfl

/-! ### The bytes of a character, by their number -/

section

variable {lead one two three : UInt8}

theorem utf8EncodeChar_single (ascii : lead.toNat ≤ 0x7F) : String.utf8EncodeChar (character lead []) = [lead] := by
  change String.utf8EncodeChar (Char.ofNat lead.toNat) = [lead]
  have valid : lead.toNat.isValidChar := .inl (by omega)
  rw [String.utf8EncodeChar, toNat_val_ofNat valid]
  rw [if_pos ascii, UInt8.ofNat_toNat]

/-- An octet that continues a sequence adds six bits. -/
abbrev Continues (octet : UInt8) : Prop :=
  0x80 ≤ octet.toNat ∧ octet.toNat ≤ 0xBF

theorem utf8EncodeChar_pair (low : 0xC2 ≤ lead.toNat) (high : lead.toNat ≤ 0xDF) (first : Continues one) :
    String.utf8EncodeChar (character lead [one]) = [lead, one] := by
  change String.utf8EncodeChar (Char.ofNat (lead.toNat % 0x20 * 0x40 + one.toNat % 0x40)) = [lead, one]
  obtain ⟨lowOne, highOne⟩ := first
  generalize is : lead.toNat % 0x20 * 0x40 + one.toNat % 0x40 = value
  have leads : value / 64 % 32 + 192 = lead.toNat := by omega
  have continues : value % 64 + 128 = one.toNat := by omega
  have valid : value.isValidChar := .inl (by omega)
  rw [String.utf8EncodeChar, toNat_val_ofNat valid]
  rw [if_neg (by omega), if_pos (by omega), leads, continues, UInt8.ofNat_toNat, UInt8.ofNat_toNat]

theorem utf8EncodeChar_triple (low : 0xE0 ≤ lead.toNat) (high : lead.toNat ≤ 0xEF) (first : Continues one)
    (second : Continues two) (notOverlong : lead.toNat = 0xE0 → 0xA0 ≤ one.toNat)
    (notSurrogate : lead.toNat = 0xED → one.toNat ≤ 0x9F) :
    String.utf8EncodeChar (character lead [one, two]) = [lead, one, two] := by
  change String.utf8EncodeChar
    (Char.ofNat ((lead.toNat % 0x10 * 0x40 + one.toNat % 0x40) * 0x40 + two.toNat % 0x40)) = [lead, one, two]
  obtain ⟨lowOne, highOne⟩ := first
  obtain ⟨lowTwo, highTwo⟩ := second
  generalize isFront : lead.toNat % 0x10 * 0x40 + one.toNat % 0x40 = front
  generalize is : front * 0x40 + two.toNat % 0x40 = value
  have shifted : value / 64 = front := by omega
  have leads : value / 4096 % 16 + 224 = lead.toNat := by omega
  have continues : value / 64 % 64 + 128 = one.toNat := by omega
  have ends : value % 64 + 128 = two.toNat := by omega
  have bounds : 0x20 ≤ front ∧ front < 0x400 ∧ (front < 0x360 ∨ 0x380 ≤ front) := by omega
  have valid : value.isValidChar := by
    unfold Nat.isValidChar
    omega
  rw [String.utf8EncodeChar, toNat_val_ofNat valid]
  rw [if_neg (by omega), if_neg (by omega), if_pos (by omega), leads, continues, ends, UInt8.ofNat_toNat,
    UInt8.ofNat_toNat, UInt8.ofNat_toNat]

theorem utf8EncodeChar_quadruple (low : 0xF0 ≤ lead.toNat) (high : lead.toNat ≤ 0xF4) (first : Continues one)
    (second : Continues two) (third : Continues three) (notOverlong : lead.toNat = 0xF0 → 0x90 ≤ one.toNat)
    (notBeyond : lead.toNat = 0xF4 → one.toNat ≤ 0x8F) :
    String.utf8EncodeChar (character lead [one, two, three]) = [lead, one, two, three] := by
  change String.utf8EncodeChar (Char.ofNat (((lead.toNat % 0x08 * 0x40 + one.toNat % 0x40) * 0x40 + two.toNat % 0x40) *
    0x40 + three.toNat % 0x40)) = [lead, one, two, three]
  obtain ⟨lowOne, highOne⟩ := first
  obtain ⟨lowTwo, highTwo⟩ := second
  obtain ⟨lowThree, highThree⟩ := third
  generalize isFront : lead.toNat % 0x08 * 0x40 + one.toNat % 0x40 = front
  generalize isMiddle : front * 0x40 + two.toNat % 0x40 = middle
  generalize is : middle * 0x40 + three.toNat % 0x40 = value
  have shifted : value / 64 = middle := by omega
  have shiftedTwice : value / 4096 = front := by omega
  have leads : value / 262144 % 8 + 240 = lead.toNat := by omega
  have continues : value / 4096 % 64 + 128 = one.toNat := by omega
  have goesOn : value / 64 % 64 + 128 = two.toNat := by omega
  have ends : value % 64 + 128 = three.toNat := by omega
  have bounds : 0x10 ≤ front ∧ front < 0x110 := by omega
  have valid : value.isValidChar := .inr ⟨by omega, by omega⟩
  rw [String.utf8EncodeChar, toNat_val_ofNat valid]
  rw [if_neg (by omega), if_neg (by omega), if_neg (by omega), leads, continues, goesOn, ends, UInt8.ofNat_toNat,
    UInt8.ofNat_toNat, UInt8.ofNat_toNat, UInt8.ofNat_toNat]

end

/-- The well-formed sequences, by their lead octets and those that follow it. -/
inductive WellFormed : UInt8 → Bytes → Prop
  | single {lead : UInt8} : lead.toNat ≤ 0x7F → WellFormed lead []
  | pair {lead one : UInt8} : 0xC2 ≤ lead.toNat → lead.toNat ≤ 0xDF → Continues one → WellFormed lead [one]
  | triple {lead one two : UInt8} : 0xE0 ≤ lead.toNat → lead.toNat ≤ 0xEF → Continues one → Continues two →
      (lead.toNat = 0xE0 → 0xA0 ≤ one.toNat) → (lead.toNat = 0xED → one.toNat ≤ 0x9F) → WellFormed lead [one, two]
  | quadruple {lead one two three : UInt8} : 0xF0 ≤ lead.toNat → lead.toNat ≤ 0xF4 → Continues one → Continues two →
      Continues three → (lead.toNat = 0xF0 → 0x90 ≤ one.toNat) → (lead.toNat = 0xF4 → one.toNat ≤ 0x8F) →
      WellFormed lead [one, two, three]

theorem contains_iff {range : Range} {octet : UInt8} :
    range.contains octet = true ↔ range.low.toNat ≤ octet.toNat ∧ octet.toNat ≤ range.high.toNat := by
  simp [Range.contains, UInt8.le_iff_toNat_le]

/-- Octets that fit all ranges lie in them one by one. -/
theorem forall₂_of_fitting {ranges : List Range} {octets : Bytes}
    (whole : (fitting ranges octets).1.length = ranges.length) :
    List.Forall₂ (fun range octet => range.contains octet = true) ranges (fitting ranges octets).1 := by
  induction ranges generalizing octets with
  | nil => simp [fitting]
  | cons range ranges ih =>
    cases octets with
    | nil => simp [fitting] at whole
    | cons octet octets =>
      unfold fitting at whole ⊢
      split_ifs at whole ⊢ with fits
      exact .cons fits (ih (by simpa using whole))

theorem fitting_of_forall₂ {ranges : List Range} {tail : Bytes}
    (fits : List.Forall₂ (fun range octet => range.contains octet = true) ranges tail) (more : Bytes) :
    fitting ranges (tail ++ more) = (tail, more) := by
  induction fits with
  | nil => simp [fitting]
  | cons contained _ ih => simp [fitting, contained, ih]

/-- A range that holds some octets, and none that is ASCII. -/
abbrev Range.Proper (range : Range) : Prop :=
  range.contains range.low = true ∧ 0x7F < range.low.toNat

theorem proper_of_following {lead : UInt8} {ranges : List Range} (follows : following lead = some ranges) :
    ∀ range ∈ ranges, range.Proper := by
  revert follows
  fun_cases following lead
  all_goals
    intro follows
    cases follows
  all_goals decide

theorem wellFormed_of_fits {lead : UInt8} {ranges : List Range} {tail : Bytes} (follows : following lead = some ranges)
    (fits : List.Forall₂ (fun range octet => range.contains octet = true) ranges tail) : WellFormed lead tail := by
  have bound := lead.toNat_lt
  simp only [contains_iff] at fits
  revert follows
  fun_cases following lead
  all_goals
    intro follows
    cases follows
  all_goals simp only [UInt8.le_iff_toNat_le, ← UInt8.toNat_inj, UInt8.reduceToNat] at *
  case case1 ascii =>
    cases fits
    exact .single ascii
  all_goals
    rcases fits with _ | ⟨⟨lowOne, highOne⟩, _ | ⟨⟨lowTwo, highTwo⟩, _ | ⟨⟨lowThree, highThree⟩, _ | _⟩⟩⟩
    simp only [continuation, UInt8.reduceToNat] at *
    constructor
  all_goals omega

/-- A well-formed sequence fits the ranges that follow its lead octet. -/
theorem fits_of_wellFormed {lead : UInt8} {tail : Bytes} (wellFormed : WellFormed lead tail) :
    ∃ ranges, following lead = some ranges ∧
      List.Forall₂ (fun range octet => range.contains octet = true) ranges tail := by
  unfold following
  simp only [UInt8.le_iff_toNat_le, ← UInt8.toNat_inj, UInt8.reduceToNat, contains_iff]
  cases wellFormed with
  | single ascii =>
    rw [if_pos ascii]
    exact ⟨[], rfl, .nil⟩
  | pair low high first =>
    rw [if_neg (by omega), if_neg (by omega), if_pos high]
    exact ⟨_, rfl, .cons first .nil⟩
  | triple low high first second notOverlong notSurrogate =>
    rw [if_neg (by omega), if_neg (by omega), if_neg (by omega)]
    split_ifs with overlong surrogate
    · exact ⟨_, rfl, .cons ⟨notOverlong overlong, first.2⟩ (.cons second .nil)⟩
    · exact ⟨_, rfl, .cons ⟨first.1, notSurrogate surrogate⟩ (.cons second .nil)⟩
    · exact ⟨_, rfl, .cons first (.cons second .nil)⟩
  | quadruple low high first second third notOverlong notBeyond =>
    rw [if_neg (by omega), if_neg (by omega), if_neg (by omega), if_neg (by omega), if_neg (by omega),
      if_neg (by omega)]
    split_ifs with overlong inside beyond
    · exact ⟨_, rfl, .cons ⟨notOverlong overlong, first.2⟩ (.cons second (.cons third .nil))⟩
    · exact ⟨_, rfl, .cons first (.cons second (.cons third .nil))⟩
    · exact ⟨_, rfl, .cons ⟨first.1, notBeyond beyond⟩ (.cons second (.cons third .nil))⟩
    · omega

/-- A well-formed sequence is cut off as its character, whatever is behind it. -/
theorem cut_of_wellFormed {lead : UInt8} {tail : Bytes} (wellFormed : WellFormed lead tail) (more : Bytes) :
    Chunk.cut lead (tail ++ more) = (.character (character lead tail) (lead :: tail), more) := by
  obtain ⟨ranges, follows, fits⟩ := fits_of_wellFormed wellFormed
  simp [Chunk.cut, follows, fitting_of_forall₂ fits, fits.length_eq]

theorem utf8EncodeChar_of_wellFormed {lead : UInt8} {tail : Bytes} (wellFormed : WellFormed lead tail) :
    String.utf8EncodeChar (character lead tail) = lead :: tail := by
  cases wellFormed with
  | single ascii => exact utf8EncodeChar_single ascii
  | pair low high first => exact utf8EncodeChar_pair low high first
  | triple low high first second notOverlong notSurrogate =>
    exact utf8EncodeChar_triple low high first second notOverlong notSurrogate
  | quadruple low high first second third notOverlong notBeyond =>
    exact utf8EncodeChar_quadruple low high first second third notOverlong notBeyond

theorem utf8EncodeChar_injective : Function.Injective String.utf8EncodeChar := by
  intro one other same
  have decoded : ∀ char, ((String.utf8EncodeChar char).toByteArray ++ ByteArray.empty).utf8DecodeChar? 0 = some char :=
    fun char => ByteArray.utf8DecodeChar?_utf8EncodeChar_append
  have first := decoded one
  rw [same, decoded other] at first
  exact (Option.some.inj first).symm

theorem exists_wellFormed (char : Char) :
    ∃ lead tail, String.utf8EncodeChar char = lead :: tail ∧ WellFormed lead tail ∧ character lead tail = char := by
  have found : ∃ lead tail, String.utf8EncodeChar char = lead :: tail ∧ WellFormed lead tail := by
    have valid : char.val.toNat < 0xD800 ∨ 0xDFFF < char.val.toNat ∧ char.val.toNat < 0x110000 := char.valid
    unfold String.utf8EncodeChar
    generalize char.val.toNat = value at valid
    dsimp only
    split_ifs with one two three
    · refine ⟨_, _, rfl, .single ?_⟩
      simp only [UInt8.toNat_ofNat']
      omega
    · refine ⟨_, _, rfl, .pair ?_ ?_ ?_⟩ <;> simp only [Continues, UInt8.toNat_ofNat'] <;> omega
    · refine ⟨_, _, rfl, .triple ?_ ?_ ?_ ?_ ?_ ?_⟩ <;> simp only [Continues, UInt8.toNat_ofNat'] <;> omega
    · refine ⟨_, _, rfl, .quadruple ?_ ?_ ?_ ?_ ?_ ?_ ?_⟩ <;> simp only [Continues, UInt8.toNat_ofNat'] <;> omega
  obtain ⟨lead, tail, bytes, wellFormed⟩ := found
  refine ⟨lead, tail, bytes, wellFormed, utf8EncodeChar_injective ?_⟩
  rw [utf8EncodeChar_of_wellFormed wellFormed, bytes]

/-! ### Strict decoding -/

/-- A chunk that is a character consists of the bytes of it. -/
theorem utf8EncodeChar_of_cut {lead : UInt8} {octets : Bytes} {char : Char}
    (found : (Chunk.cut lead octets).1.char? = some char) :
    String.utf8EncodeChar char = (Chunk.cut lead octets).1.bytes := by
  unfold Chunk.cut at found ⊢
  cases follows : following lead with
  | none =>
    rw [follows] at found
    cases found
  | some ranges =>
    rw [follows] at found
    dsimp only at found ⊢
    split_ifs at found ⊢ with whole
    · cases found
      exact utf8EncodeChar_of_wellFormed (wellFormed_of_fits follows (forall₂_of_fitting whole))
    · cases found

/-- A byte string that is decoded is the bytes of its text. -/
theorem encode_of_decode? {octets : Bytes} {text : String} (decoded : decode? octets = some text) :
    encode text = octets := by
  obtain ⟨chars, found, rfl⟩ := Option.map_eq_some_iff.mp decoded
  rw [encode, String.toList_ofList]
  clear decoded
  fun_induction chunks octets generalizing chars with
  | case1 =>
    cases found
    rfl
  | case2 lead octets cut ih =>
    rw [List.mapM_cons] at found
    simp only [Option.bind_eq_bind, Option.bind_eq_some_iff, Option.pure_def, Option.some.injEq] at found
    obtain ⟨char, first, others, rest, rfl⟩ := found
    rw [List.flatMap_cons, ih _ rest, utf8EncodeChar_of_cut first, Chunk.bytes_append_rest]

/-! ### The bytes of a text -/

theorem chunks_encode (text : List Char) :
    chunks (text.flatMap String.utf8EncodeChar) = text.map fun char => .character char (String.utf8EncodeChar char) := by
  induction text with
  | nil => simp [chunks]
  | cons char text ih =>
    obtain ⟨lead, tail, bytes, wellFormed, same⟩ := exists_wellFormed char
    rw [List.flatMap_cons, bytes, List.cons_append, chunks, cut_of_wellFormed wellFormed, ih, same, List.map_cons, bytes]

/-- The bytes of a text are decoded to it. -/
theorem decode?_encode (text : String) : decode? (encode text) = some text := by
  have decoded : (text.toList.map fun char => Chunk.character char (String.utf8EncodeChar char)).mapM Chunk.char? =
      some text.toList := by
    induction text.toList with
    | nil => rfl
    | cons char text ih => simp [List.mapM_cons, Chunk.char?, ih]
  rw [decode?, encode, chunks_encode, decoded, Option.map_some, String.ofList_toList]

theorem decode?_eq_some_iff {octets : Bytes} {text : String} : decode? octets = some text ↔ octets = encode text := by
  constructor
  · intro decoded
    exact (encode_of_decode? decoded).symm
  · rintro rfl
    exact decode?_encode text

theorem lossy_encode (text : String) : lossy (encode text) = text := by
  have shown : (text.toList.map fun char => Chunk.character char (String.utf8EncodeChar char)).map Chunk.shown =
      text.toList := by
    simp [Function.comp_def, Chunk.shown]
  rw [lossy, encode, chunks_encode, shown, String.ofList_toList]

end Utf8

end ActorSurface
