import ActorSurface.Proofs.Token.Delivery
import ActorSurface.Proofs.Token.Readings

/-!
The segments of a text. One behind the other, without a gap, they reach from the first byte to the last; each is
what one call delivers, a token or a failure, or is passed over (`exists_segments`). So every call goes on, and no
later than behind as many calls as the text has bytes a cursor is at the end, where it stays.
-/

namespace ActorSurface

namespace Token

/-- A stretch of a text by its byte offsets, and what is read of it, nothing where it is passed over. -/
structure Segment where
  start : Nat
  stop : Nat
  reading : Option Reading
  deriving DecidableEq

/-- Segments that reach from one offset to another: each begins where the one before it ends, and takes at least
    one byte. -/
def Tiles : Nat → List Segment → Nat → Prop
  | offset, [], final => offset = final
  | offset, segment :: rest, final => segment.start = offset ∧ offset < segment.stop ∧ Tiles segment.stop rest final

/-- What is passed over where a text goes on behind it. -/
inductive PassedOver : List Char → List Char → Prop
  | blanks {taken behind : List Char} : taken ∈ Rule.blanks.pattern → PassedOver taken behind
  | lineComment {taken behind : List Char} : taken ∈ Rule.lineComment.pattern → PassedOver taken behind
  | directive {taken behind : List Char} : taken ∈ Rule.directive.pattern → PassedOver taken behind
  /-- At the end of the text a directive takes a lone backslash with it. -/
  | lastDirective {taken : List Char} : taken ∈ Rule.directive.pattern → PassedOver (taken ++ ['\\']) []
  | blockComment {inside behind : List Char} : ¬ ['*', '/'] <:+: inside ++ ['*'] →
      PassedOver (['/', '*'] ++ inside ++ ['*', '/']) behind

/-- What is read of a segment is told of all of it: a token spans it, a failure is found at its start. -/
def Segment.Fits (segment : Segment) (taken behind : List Char) : Prop :=
  match segment.reading with
  | none => PassedOver taken behind
  | some (.ok token) => token.kind ≠ .endOfText ∧ token.start = segment.start ∧ token.stop = segment.stop
  | some (.error misread) => misread.offset = segment.start

/-- The cursor behind some calls for the next token, whatever they deliver. -/
def Cursor.advance (cursor : Cursor) : Nat → Cursor
  | 0 => cursor
  | count + 1 => cursor.next.2.advance count

/-- Segments of a source, and the calls that deliver them. -/
structure Reads (source : String) (segments : List Segment) : Prop where
  tiles : Tiles 0 segments source.utf8ByteSize
  /-- A segment begins and ends between characters. The call that delivers it leaves the cursor behind it. -/
  placed : ∀ front segment back, segments = front ++ segment :: back → ∃ before taken behind,
    source.toList = before ++ taken ++ behind ∧ segment.start = Utf8.size before ∧
      segment.stop = Utf8.size (before ++ taken) ∧ segment.Fits taken behind ∧
      (segment.reading.isSome → Stands ((Cursor.ofText source.toList).advance
        ((front.filterMap Segment.reading).length + 1)) segment.stop behind)
  /-- Each call delivers the next segment that is not passed over, and then the end. -/
  called : ∀ count, ((Cursor.ofText source.toList).advance count).next.1 =
    (segments.filterMap Segment.reading)[count]?.getD (.ok (atEnd source.utf8ByteSize))

/-! ### The segments of pieces -/

/-- The segments of pieces, the first of which stands at an offset. -/
def segmentsAt (offset : Nat) : List Piece → List Segment
  | [] => []
  | piece :: rest => ⟨offset, offset + piece.size, piece.reading? offset⟩ :: segmentsAt (offset + piece.size) rest

theorem filterMap_segmentsAt (offset : Nat) (pieces : List Piece) :
    (segmentsAt offset pieces).filterMap Segment.reading = readingsAt offset pieces := by
  induction pieces generalizing offset with
  | nil => rfl
  | cons piece rest ih =>
    simp only [segmentsAt, readingsAt, ← ih]
    cases piece.reading? offset <;> simp

theorem size_pos {text : List Char} (some_character : text ≠ []) : 0 < Utf8.size text := by
  cases text with
  | nil => exact absurd rfl some_character
  | cons char text =>
    have := char.utf8Size_pos
    simp only [Utf8.size]
    omega

theorem size_toList (source : String) : Utf8.size source.toList = source.utf8ByteSize := by
  have encoded : ∀ text : List Char, Utf8.size text = text.utf8Encode.size := by
    intro text
    induction text with
    | nil => rfl
    | cons char text ih =>
      rw [List.utf8Encode_cons, ByteArray.size_append, ← ih]
      simp [Utf8.size, List.utf8Encode]
  rw [encoded, ← String.toByteArray_ofList, String.ofList_toList]
  rfl

theorem tiles_segmentsAt (offset : Nat) (text : List Char) :
    Tiles offset (segmentsAt offset (pieces text)) (offset + Utf8.size text) := by
  fun_induction pieces text generalizing offset with
  | case1 => rfl
  | case2 char text cut ih =>
    have whole := congrArg Utf8.size (Piece.cut_append char text)
    have some_byte := size_pos (Piece.cut_text_ne_nil char text)
    have onward := ih (offset + cut.1.size)
    rw [Utf8.size_append] at whole
    rw [Nat.add_assoc] at onward
    refine ⟨rfl, Nat.lt_add_of_pos_right some_byte, ?_⟩
    rw [← whole]
    exact onward

/-- What the reference skips is one of the things that may be passed over. -/
theorem passedOver_of_reference {text taken behind : List Char} (reference : Reference text .skip taken behind) :
    PassedOver taken behind := by
  obtain ⟨rule, lexeme, rest, munch, rfl, outcome⟩ := reference
  have matched := munch.matched
  cases outcome with
  | plain meaning _ _ =>
    cases rule with
    | blanks => exact .blanks matched
    | lineComment => exact .lineComment matched
    | directive => exact .directive matched
    | _ => cases meaning
  | comment isComment _ first =>
    subst isComment
    obtain rfl := mem_commentOpening.mp matched
    exact .blockComment first
  | swallows swallows =>
    obtain ⟨rfl, rfl⟩ := swallows
    exact .lastDirective matched

/-- The segment of the first piece fits it. -/
theorem fits_cut (offset : Nat) (char : Char) (text : List Char) :
    (⟨offset, offset + (Piece.cut char text).1.size, (Piece.cut char text).1.reading? offset⟩ : Segment).Fits
      (Piece.cut char text).1.text (Piece.cut char text).2 := by
  have reference := reference_cut char text
  have notEnd := cut_kind_ne_endOfText char text
  generalize Piece.cut char text = cut at reference notEnd
  obtain ⟨⟨form, taken⟩, behind⟩ := cut
  cases form with
  | skipped what => exact passedOver_of_reference reference
  | token kind =>
    refine ⟨?_, rfl, rfl⟩
    rintro rfl
    exact notEnd rfl
  | malformed fault => rfl

/-- Each segment of a text takes some of it, and the segments behind it are those of what is behind. -/
theorem placed_segmentsAt (offset : Nat) (text : List Char) (front : List Segment) {back : List Segment}
    {segment : Segment} (split : segmentsAt offset (pieces text) = front ++ segment :: back) :
    ∃ before taken behind, text = before ++ taken ++ behind ∧ segment.start = offset + Utf8.size before ∧
      segment.stop = offset + Utf8.size (before ++ taken) ∧ segment.Fits taken behind ∧
      back = segmentsAt segment.stop (pieces behind) := by
  fun_induction pieces text generalizing offset front with
  | case1 => simp [segmentsAt] at split
  | case2 char text cut ih =>
    have whole : cut.1.text ++ cut.2 = char :: text := Piece.cut_append char text
    rcases List.cons_eq_append_iff.mp split with ⟨rfl, same⟩ | ⟨more, rfl, rest⟩
    · obtain ⟨rfl, rfl⟩ := List.cons.inj same
      exact ⟨[], cut.1.text, cut.2, whole.symm, rfl, rfl, fits_cut offset char text, rfl⟩
    · obtain ⟨before, taken, behind, place, start, stop, fits, others⟩ := ih _ more rest
      refine ⟨cut.1.text ++ before, taken, behind, ?_, ?_, ?_, fits, others⟩
      · rw [← whole, place]
        simp
      · rw [start, Utf8.size_append, Piece.size, Nat.add_assoc]
      · rw [stop, List.append_assoc, Utf8.size_append cut.1.text, Piece.size, Nat.add_assoc]

/-! ### Calls -/

theorem advance_eq (cursor : Cursor) (count : Nat) (empty : cursor.ahead = none) :
    cursor.advance count = { cursor with pending := cursor.pending.drop count } := by
  induction count generalizing cursor with
  | zero => rfl
  | succ count ih =>
    obtain ⟨lines, size, pending, ahead⟩ := cursor
    obtain rfl : ahead = none := empty
    cases pending with
    | nil => exact (ih _ rfl).trans (by simp [Cursor.next, Cursor.read])
    | cons reading pending => exact ih _ rfl

/-- The calls on a text deliver its readings, and then its end. -/
theorem next_advance (text : List Char) (count : Nat) :
    ((Cursor.ofText text).advance count).next.1 = (readings text)[count]?.getD (.ok (atEnd (Utf8.size text))) := by
  rw [advance_eq _ count rfl, ← List.head?_drop]
  unfold Cursor.next Cursor.read Cursor.ofText
  cases (readings text).drop count <;> rfl

/-! ### Segments of a source -/

theorem reads_segmentsAt (source : String) : Reads source (segmentsAt 0 (pieces source.toList)) := by
  have called : (segmentsAt 0 (pieces source.toList)).filterMap Segment.reading = readings source.toList :=
    filterMap_segmentsAt 0 _
  constructor
  · have tiles := tiles_segmentsAt 0 source.toList
    rwa [Nat.zero_add, size_toList] at tiles
  · intro front segment back split
    obtain ⟨before, taken, behind, place, start, stop, fits, others⟩ := placed_segmentsAt 0 _ front split
    rw [Nat.zero_add] at start stop
    refine ⟨before, taken, behind, place, start, stop, fits, fun delivered => ?_⟩
    obtain ⟨reading, told⟩ := Option.isSome_iff_exists.mp delivered
    -- The readings before this one are those of the segments in front, so the call is the next after as many.
    rw [split, List.filterMap_append, List.filterMap_cons_some told, others, filterMap_segmentsAt] at called
    rw [advance_eq _ _ rfl]
    constructor
    · change (readings source.toList).drop _ = _
      rw [← called]
      simp
    · change Utf8.size source.toList = _
      rw [place, Utf8.size_append, stop]
  · intro count
    rw [next_advance, called, size_toList]

theorem Tiles.length_le {offset final : Nat} {segments : List Segment} (tiles : Tiles offset segments final) :
    offset + segments.length ≤ final := by
  induction segments generalizing offset with
  | nil => exact tiles.le
  | cons segment rest ih =>
    obtain ⟨-, some_byte, onward⟩ := tiles
    have := ih onward
    simp only [List.length_cons]
    omega

theorem Tiles.bounds {offset final : Nat} {segments : List Segment} (tiles : Tiles offset segments final) :
    offset ≤ final ∧ ∀ segment ∈ segments,
      offset ≤ segment.start ∧ segment.start < segment.stop ∧ segment.stop ≤ final := by
  induction segments generalizing offset with
  | nil => exact ⟨tiles.le, by simp⟩
  | cons first rest ih =>
    obtain ⟨start, some_byte, onward⟩ := tiles
    obtain ⟨inside, others⟩ := ih onward
    refine ⟨by omega, fun segment listed => ?_⟩
    rcases List.mem_cons.mp listed with rfl | later
    · omega
    · have := others segment later
      omega

theorem Tiles.ordered {offset final : Nat} {segments : List Segment} (tiles : Tiles offset segments final) :
    segments.Pairwise fun earlier later => earlier.stop ≤ later.start := by
  induction segments generalizing offset with
  | nil => exact .nil
  | cons first rest ih =>
    obtain ⟨-, -, onward⟩ := tiles
    exact .cons (fun later listed => (onward.bounds.2 later listed).1) (ih onward)

theorem Reads.spans {source : String} {segments : List Segment} (reads : Reads source segments) {segment : Segment}
    {token : Token} (listed : segment ∈ segments) (told : segment.reading = some (.ok token)) :
    token.start = segment.start ∧ token.stop = segment.stop := by
  obtain ⟨front, back, split⟩ := List.append_of_mem listed
  obtain ⟨_, _, _, -, -, -, fits, -⟩ := reads.placed front segment back split
  simp only [Segment.Fits, told] at fits
  exact fits.2

/-- A call for the next token before the end delivers a segment. -/
theorem Reads.exists_segment {source : String} {segments : List Segment} (reads : Reads source segments) {count : Nat}
    {token : Token} (delivered : ((Cursor.ofText source.toList).advance count).next.1 = .ok token)
    (notEnd : token.kind ≠ .endOfText) : (segments.filterMap Segment.reading)[count]? = some (.ok token) := by
  rw [reads.called] at delivered
  cases here : (segments.filterMap Segment.reading)[count]? with
  | none =>
    rw [here] at delivered
    obtain rfl := Except.ok.inj delivered
    exact absurd rfl notEnd
  | some reading =>
    rw [here] at delivered
    exact congrArg some delivered

/-- The tokens of later calls stand behind those of earlier ones. -/
theorem Reads.ordered {source : String} {segments : List Segment} (reads : Reads source segments)
    {earlier later : Nat} {token other : Token} (order : earlier < later)
    (delivered : ((Cursor.ofText source.toList).advance earlier).next.1 = .ok token) (notEnd : token.kind ≠ .endOfText)
    (behind : ((Cursor.ofText source.toList).advance later).next.1 = .ok other) :
    token.start < token.stop ∧ token.stop ≤ other.start := by
  have first := reads.exists_segment delivered notEnd
  obtain ⟨segment, listed, told⟩ := List.mem_filterMap.mp (List.mem_of_getElem? first)
  obtain ⟨start, stop⟩ := reads.spans listed told
  obtain ⟨-, some_byte, inside⟩ := reads.tiles.bounds.2 segment listed
  refine ⟨by omega, ?_⟩
  rw [reads.called] at behind
  cases second : (segments.filterMap Segment.reading)[later]? with
  | none =>
    rw [second] at behind
    obtain rfl := Except.ok.inj behind
    rw [stop]
    exact inside
  | some reading =>
    rw [second] at behind
    obtain rfl : reading = .ok other := behind
    have apart : (segments.filterMap Segment.reading).Pairwise fun one two =>
        ∀ token other, one = .ok token → two = .ok other → token.stop ≤ other.start := by
      refine List.pairwise_filterMap.mpr (reads.tiles.ordered.imp_of_mem ?_)
      rintro one two oneListed twoListed order _ oneTold _ twoTold token other rfl rfl
      rw [(reads.spans oneListed oneTold).2, (reads.spans twoListed twoTold).1]
      exact order
    obtain ⟨firstPlace, firstHere⟩ := List.getElem?_eq_some_iff.mp first
    obtain ⟨secondPlace, secondHere⟩ := List.getElem?_eq_some_iff.mp second
    exact List.pairwise_iff_getElem.mp apart earlier later firstPlace secondPlace order token other firstHere secondHere

/-- Every source is read segment by segment. No later than behind as many calls as it has bytes every call delivers
    its end, and before that no token reaches into another. -/
theorem exists_segments (source : String) :
    ∃ segments, Reads source segments ∧
      (∀ count, source.utf8ByteSize ≤ count →
        ((Cursor.ofText source.toList).advance count).next.1 = .ok (atEnd source.utf8ByteSize)) ∧
      ∀ earlier later token other, earlier < later →
        ((Cursor.ofText source.toList).advance earlier).next.1 = .ok token → token.kind ≠ .endOfText →
        ((Cursor.ofText source.toList).advance later).next.1 = .ok other →
          token.start < token.stop ∧ token.stop ≤ other.start := by
  have reads := reads_segmentsAt source
  refine ⟨_, reads, fun count late => ?_, fun earlier later token other order delivered notEnd behind =>
    reads.ordered order delivered notEnd behind⟩
  have segmentsLength := reads.tiles.length_le
  have readingsLength := List.length_filterMap_le Segment.reading (segmentsAt 0 (pieces source.toList))
  rw [reads.called, List.getElem?_eq_none (by omega)]
  rfl

end Token

end ActorSurface
