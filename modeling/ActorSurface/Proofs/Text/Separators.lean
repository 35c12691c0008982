import ActorSurface.Proofs.Text.Decoding

/-!
ASCII octets in byte strings that need not be well-formed. No sequence goes on with such an octet, so that decoding
begins anew at each of them (`chunks_append`), and it stands for its own character and for nothing else
(`mem_lossy`). Lossy decoding therefore commutes with joining byte strings by a separator (`lossy_intercalate`) and with
putting one separator in the place of another (`lossy_substitute`).
-/

namespace ActorSurface

/-- A list with some other element in the place of one, wherever that stands. -/
def substitute {α : Type} [DecidableEq α] (one other : α) (list : List α) : List α :=
  list.map fun element => if element = one then other else element

theorem substitute_of_not_mem {α : Type} [DecidableEq α] {one : α} {list : List α} (absent : one ∉ list) (other : α) :
    substitute one other list = list := by
  have kept : ∀ element ∈ list, (if element = one then other else element) = element := by
    intro element listed
    rw [if_neg]
    rintro rfl
    exact absent listed
  rw [substitute, List.map_congr_left kept, List.map_id']

/-- What is put in the place of an element parts the list as that did. -/
theorem substitute_append {α : Type} [DecidableEq α] {one : α} {front : List α} (absent : one ∉ front) (other : α)
    (behind : List α) :
    substitute one other (front ++ one :: behind) = front ++ other :: substitute one other behind := by
  have kept := substitute_of_not_mem absent other
  unfold substitute at kept ⊢
  rw [List.map_append, kept, List.map_cons, if_pos rfl]

namespace Utf8

/-- An octet that is a character by itself. -/
abbrev Ascii (octet : UInt8) : Prop :=
  octet.toNat ≤ 0x7F

/-- The character that such an octet is. -/
abbrev ofAscii (octet : UInt8) : Char :=
  character octet []

variable {octet : UInt8}

/-! ### Characters -/

/-- In a well-formed sequence an ASCII octet stands alone. -/
theorem WellFormed.eq_of_ascii {lead : UInt8} {tail : Bytes} (wellFormed : WellFormed lead tail) (ascii : Ascii octet)
    (listed : octet ∈ lead :: tail) : octet = lead ∧ tail = [] := by
  cases wellFormed with
  | single => simpa using listed
  | pair low high first =>
    rcases List.mem_cons.mp listed with rfl | later
    · omega
    · obtain rfl := List.mem_singleton.mp later
      omega
  | triple low high first second =>
    rcases List.mem_cons.mp listed with rfl | later
    · omega
    · rcases List.mem_pair.mp later with rfl | rfl <;> omega
  | quadruple low high first second third =>
    rcases List.mem_cons.mp listed with rfl | later
    · omega
    · simp only [List.mem_cons, List.not_mem_nil, or_false] at later
      rcases later with rfl | rfl | rfl <;> omega

/-- Of the characters, only that of an ASCII octet has this octet. -/
theorem mem_utf8EncodeChar (ascii : Ascii octet) {char : Char} :
    octet ∈ String.utf8EncodeChar char ↔ char = ofAscii octet := by
  constructor
  · intro listed
    obtain ⟨lead, tail, bytes, wellFormed, rfl⟩ := exists_wellFormed char
    rw [bytes] at listed
    obtain ⟨rfl, rfl⟩ := wellFormed.eq_of_ascii ascii listed
    rfl
  · rintro rfl
    rw [utf8EncodeChar_single ascii]
    exact List.mem_singleton_self octet

/-- A text has the octet just where it has its character. -/
theorem mem_encode (ascii : Ascii octet) {text : String} : octet ∈ encode text ↔ ofAscii octet ∈ text.toList := by
  unfold encode
  rw [List.mem_flatMap]
  constructor
  · rintro ⟨char, listed, here⟩
    exact (mem_utf8EncodeChar ascii).mp here ▸ listed
  · intro listed
    exact ⟨_, listed, (mem_utf8EncodeChar ascii).mpr rfl⟩

/-! ### Chunks -/

/-- No sequence goes on with an ASCII octet. -/
theorem not_contains_of_proper {range : Range} (proper : range.Proper) (ascii : Ascii octet) :
    range.contains octet = false := by
  have high := proper.2
  rw [Bool.eq_false_iff, Ne, contains_iff]
  omega

/-- What fits has no ASCII octet. -/
theorem not_mem_fitting {ranges : List Range} (proper : ∀ range ∈ ranges, range.Proper) (ascii : Ascii octet)
    (octets : Bytes) : octet ∉ (fitting ranges octets).1 := by
  fun_induction fitting ranges octets with
  | case1 range ranges first octets fits fit rest split ih =>
    rw [split] at ih
    have different : octet ≠ first := by
      rintro rfl
      rw [not_contains_of_proper (proper range List.mem_cons_self) ascii] at fits
      cases fits
    simpa [different] using ih fun other listed => proper other (List.mem_cons_of_mem _ listed)
  | case2 => simp
  | case3 => simp

/-- What fits does not reach over an ASCII octet. -/
theorem fitting_ascii {ranges : List Range} (proper : ∀ range ∈ ranges, range.Proper) (ascii : Ascii octet)
    (octets more : Bytes) :
    fitting ranges (octets ++ octet :: more) =
      ((fitting ranges octets).1, (fitting ranges octets).2 ++ octet :: more) := by
  induction octets generalizing ranges with
  | nil =>
    cases ranges with
    | nil => simp [fitting]
    | cons range ranges => simp [fitting, not_contains_of_proper (proper range List.mem_cons_self) ascii]
  | cons first octets ih =>
    cases ranges with
    | nil => simp [fitting]
    | cons range ranges =>
      have others := ih fun other listed => proper other (List.mem_cons_of_mem _ listed)
      by_cases fits : range.contains first = true
      · simp [fitting, fits, others]
      · simp [fitting, fits]

/-- The first chunk does not reach over an ASCII octet. -/
theorem cut_append (lead : UInt8) (ascii : Ascii octet) (octets more : Bytes) :
    Chunk.cut lead (octets ++ octet :: more) =
      ((Chunk.cut lead octets).1, (Chunk.cut lead octets).2 ++ octet :: more) := by
  unfold Chunk.cut
  cases follows : following lead with
  | none => rfl
  | some ranges =>
    simp only [fitting_ascii (proper_of_following follows) ascii]
    split_ifs <;> rfl

/-- An ASCII octet is a chunk by itself. -/
theorem chunks_cons (ascii : Ascii octet) (more : Bytes) :
    chunks (octet :: more) = .character (ofAscii octet) [octet] :: chunks more := by
  have cut := cut_of_wellFormed (.single ascii) more
  rw [List.nil_append] at cut
  rw [chunks, cut]

/-- Decoding begins anew at an ASCII octet. -/
theorem chunks_append (ascii : Ascii octet) (octets more : Bytes) :
    chunks (octets ++ octet :: more) = chunks octets ++ chunks (octet :: more) := by
  fun_induction chunks octets with
  | case1 => rfl
  | case2 lead octets cut ih =>
    rw [List.cons_append, chunks, cut_append lead ascii]
    exact congrArg (cut.1 :: ·) ih

/-- An ill-formed part has no ASCII octet. -/
theorem not_mem_of_malformed (ascii : Ascii octet) {lead : UInt8} {octets part : Bytes}
    (found : (Chunk.cut lead octets).1 = .malformed part) : octet ∉ part := by
  have leads : octet ≠ lead := by
    rintro rfl
    have cut := cut_of_wellFormed (.single ascii) octets
    rw [List.nil_append] at cut
    rw [cut] at found
    cases found
  unfold Chunk.cut at found
  cases follows : following lead with
  | none =>
    rw [follows] at found
    cases found
    simpa using leads
  | some ranges =>
    rw [follows] at found
    dsimp only at found
    split_ifs at found
    cases found
    simpa [leads] using not_mem_fitting (proper_of_following follows) ascii octets

theorem replacement_ne_ofAscii (ascii : Ascii octet) : replacement ≠ ofAscii octet := by
  intro same
  have listed := (mem_utf8EncodeChar ascii).mpr same
  have bytes : String.utf8EncodeChar replacement = [0xEF, 0xBF, 0xBD] := by decide
  rw [bytes] at listed
  simp only [List.mem_cons, List.not_mem_nil, or_false] at listed
  rcases listed with rfl | rfl | rfl <;> exact absurd ascii (by decide)

/-- A chunk has an ASCII octet where the character that stands for it is the octet's. -/
theorem mem_cut (ascii : Ascii octet) (lead : UInt8) (octets : Bytes) :
    octet ∈ (Chunk.cut lead octets).1.bytes ↔ (Chunk.cut lead octets).1.shown = ofAscii octet := by
  have bytes := @utf8EncodeChar_of_cut lead octets
  cases found : (Chunk.cut lead octets).1 with
  | character char part =>
    rw [found] at bytes
    rw [← bytes rfl]
    exact mem_utf8EncodeChar ascii
  | malformed part =>
    have unlisted := not_mem_of_malformed ascii found
    simp [Chunk.bytes, Chunk.shown, unlisted, replacement_ne_ofAscii ascii]

/-! ### Texts -/

theorem mem_chunks (ascii : Ascii octet) {octets : Bytes} :
    ofAscii octet ∈ (chunks octets).map Chunk.shown ↔ octet ∈ (chunks octets).flatMap Chunk.bytes := by
  fun_induction chunks octets with
  | case1 => simp
  | case2 lead octets cut ih =>
    rw [List.map_cons, List.mem_cons, List.flatMap_cons, List.mem_append, ih, mem_cut ascii, eq_comm]

/-- A byte string is shown with the character of an ASCII octet where it has the octet. -/
theorem mem_lossy (ascii : Ascii octet) {octets : Bytes} : ofAscii octet ∈ (lossy octets).toList ↔ octet ∈ octets := by
  rw [lossy, String.toList_ofList, mem_chunks ascii, bytes_chunks]

/-- An ASCII octet parts the text that is shown. -/
theorem lossy_append (ascii : Ascii octet) (octets more : Bytes) :
    lossy (octets ++ octet :: more) = lossy octets ++ String.singleton (ofAscii octet) ++ lossy more := by
  apply String.toList_inj.mp
  simp [lossy, chunks_append ascii, chunks_cons ascii, Chunk.shown]

/-- Byte strings may be joined before they are shown, or after. -/
theorem lossy_intercalate (ascii : Ascii octet) (parts : List Bytes) :
    lossy ([octet].intercalate parts) = (String.singleton (ofAscii octet)).intercalate (parts.map lossy) := by
  induction parts with
  | nil => simp [lossy, chunks]
  | cons part parts ih =>
    cases parts with
    | nil => simp
    | cons next parts =>
      simp only [List.map_cons] at ih ⊢
      rw [List.intercalate_cons_cons, List.append_assoc, List.singleton_append, lossy_append ascii, ih,
        String.intercalate_cons_cons]

/-- An octet may be put in the place of another before the byte string is shown, or its character after. -/
theorem lossy_substitute {one other : UInt8} (ascii : Ascii one) (asciiOther : Ascii other) (octets : Bytes) :
    lossy (substitute one other octets) =
      String.ofList (substitute (ofAscii one) (ofAscii other) (lossy octets).toList) := by
  -- Up to the first place of the octet nothing changes, and behind it decoding begins anew.
  by_cases listed : one ∈ octets
  · obtain ⟨front, behind, rfl, absent⟩ := List.eq_append_cons_of_mem listed
    have others := lossy_substitute ascii asciiOther behind
    have unshown : ofAscii one ∉ (lossy front).toList := mt (mem_lossy ascii).mp absent
    have shown : (lossy (front ++ one :: behind)).toList =
        (lossy front).toList ++ ofAscii one :: (lossy behind).toList := by
      simp [lossy_append ascii]
    rw [shown, substitute_append absent, substitute_append unshown, lossy_append asciiOther, others]
    apply String.toList_inj.mp
    simp
  · have unshown : ofAscii one ∉ (lossy octets).toList := mt (mem_lossy ascii).mp listed
    rw [substitute_of_not_mem listed, substitute_of_not_mem unshown, String.ofList_toList]
termination_by octets.length
decreasing_by
  subst_vars
  simp only [List.length_append, List.length_cons]
  omega

end Utf8

end ActorSurface
