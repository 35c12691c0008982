/-!
UTF-8 between byte strings and characters. A byte string is cut into chunks (`chunks`): well-formed
characters, and maximal ill-formed parts, which are the longest prefixes of a well-formed sequence or
else single bytes. Strict decoding (`decode?`) refuses the ill-formed parts and lossy decoding
(`lossy`) shows each of them as one replacement character. The chunks lose no byte
(`Chunk.bytes_append_rest`).
-/

namespace ActorSurface

/-- A byte string: a path, an argument or the content of a file. -/
abbrev Bytes := List UInt8

namespace Utf8

/-- The octets that one position of a sequence admits. -/
structure Range where
  low : UInt8
  high : UInt8
  deriving DecidableEq, Repr

/-- Whether an octet lies in a range. -/
def Range.contains (range : Range) (octet : UInt8) : Bool :=
  range.low ≤ octet && octet ≤ range.high

/-- The octets that continue a sequence, where its lead octet does not narrow them. -/
def continuation : Range := ⟨0x80, 0xBF⟩

/-- The ranges of the octets that follow a lead octet, or nothing where no sequence starts with it.
    The narrowed second ranges keep out overlong forms, surrogates and values above U+10FFFF. -/
def following (lead : UInt8) : Option (List Range) :=
  if lead ≤ 0x7F then some []
  else if lead ≤ 0xC1 then none
  else if lead ≤ 0xDF then some [continuation]
  else if lead = 0xE0 then some [⟨0xA0, 0xBF⟩, continuation]
  else if lead = 0xED then some [⟨0x80, 0x9F⟩, continuation]
  else if lead ≤ 0xEF then some [continuation, continuation]
  else if lead = 0xF0 then some [⟨0x90, 0xBF⟩, continuation, continuation]
  else if lead ≤ 0xF3 then some [continuation, continuation, continuation]
  else if lead = 0xF4 then some [⟨0x80, 0x8F⟩, continuation, continuation]
  else none

/-- The octets at the front that fit the ranges one after the other, and what is behind them. -/
def fitting : List Range → Bytes → Bytes × Bytes
  | range :: ranges, octet :: octets =>
    if range.contains octet then
      let (fit, rest) := fitting ranges octets
      (octet :: fit, rest)
    else ([], octet :: octets)
  | _, octets => ([], octets)

theorem fitting_append (ranges : List Range) (octets : Bytes) :
    (fitting ranges octets).1 ++ (fitting ranges octets).2 = octets := by
  fun_induction fitting ranges octets <;> simp_all

/-- The bits of a lead octet that belong to the character, where `count` octets follow it. -/
def leadBits (lead : UInt8) (count : Nat) : Nat :=
  match count with
  | 0 => lead.toNat
  | 1 => lead.toNat % 0x20
  | 2 => lead.toNat % 0x10
  | _ => lead.toNat % 0x08

/-- The character that a lead octet and the octets behind it stand for: six bits from each of these. -/
def character (lead : UInt8) (tail : Bytes) : Char :=
  Char.ofNat (tail.foldl (fun value octet => value * 0x40 + octet.toNat % 0x40) (leadBits lead tail.length))

/-- What decoding finds next: a character, or one maximal ill-formed part. -/
inductive Chunk where
  | character (char : Char) (octets : Bytes)
  | malformed (octets : Bytes)
  deriving DecidableEq, Repr

/-- The bytes of a chunk. -/
def Chunk.bytes : Chunk → Bytes
  | .character _ octets => octets
  | .malformed octets => octets

/-- The chunk that begins with an octet, and the bytes behind the chunk. -/
def Chunk.cut (lead : UInt8) (octets : Bytes) : Chunk × Bytes :=
  match following lead with
  | none => (.malformed [lead], octets)
  | some ranges =>
    let (fit, rest) := fitting ranges octets
    if fit.length = ranges.length then (.character (Utf8.character lead fit) (lead :: fit), rest)
    else (.malformed (lead :: fit), rest)

theorem Chunk.bytes_append_rest (lead : UInt8) (octets : Bytes) :
    (Chunk.cut lead octets).1.bytes ++ (Chunk.cut lead octets).2 = lead :: octets := by
  unfold Chunk.cut
  split
  · rfl
  · rename_i ranges _
    have whole := fitting_append ranges octets
    dsimp only
    split <;> simp [Chunk.bytes, whole]

theorem Chunk.bytes_ne_nil (lead : UInt8) (octets : Bytes) : (Chunk.cut lead octets).1.bytes ≠ [] := by
  unfold Chunk.cut
  split
  · simp [Chunk.bytes]
  · dsimp only
    split <;> simp [Chunk.bytes]

theorem Chunk.rest_length_le (lead : UInt8) (octets : Bytes) :
    (Chunk.cut lead octets).2.length ≤ octets.length := by
  have whole := congrArg List.length (Chunk.bytes_append_rest lead octets)
  have some_byte := List.length_pos_iff.mpr (Chunk.bytes_ne_nil lead octets)
  simp only [List.length_append, List.length_cons] at whole
  omega

/-- The chunks of a byte string. -/
def chunks : Bytes → List Chunk
  | [] => []
  | lead :: octets =>
    let cut := Chunk.cut lead octets
    cut.1 :: chunks cut.2
termination_by octets => octets.length
decreasing_by
  have := Chunk.rest_length_le lead octets
  simp only [List.length_cons]
  omega

/-- The character shown for an ill-formed part. -/
def replacement : Char := '\uFFFD'

/-- The character that stands for a chunk where ill-formed parts are only shown. -/
def Chunk.shown : Chunk → Char
  | .character char _ => char
  | .malformed _ => replacement

/-- The character of a chunk, if it is one. -/
def Chunk.char? : Chunk → Option Char
  | .character char _ => some char
  | .malformed _ => none

/-- The text of a byte string, each maximal ill-formed part shown as one replacement character. -/
def lossy (octets : Bytes) : String :=
  String.ofList ((chunks octets).map Chunk.shown)

/-- The text of a byte string that is well-formed throughout. -/
def decode? (octets : Bytes) : Option String :=
  ((chunks octets).mapM Chunk.char?).map String.ofList

/-- The bytes of a text. -/
def encode (text : String) : Bytes :=
  text.toList.flatMap String.utf8EncodeChar

/-- The number of bytes that a run of characters takes. -/
def size : List Char → Nat
  | [] => 0
  | char :: text => char.utf8Size + size text

theorem size_append (text more : List Char) : size (text ++ more) = size text + size more := by
  induction text with
  | nil => simp [size]
  | cons char text ih =>
    simp only [List.cons_append, size, ih]
    omega

end Utf8

end ActorSurface
