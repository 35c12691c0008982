import ActorSurface.Proofs.Text.Decoding

/-!
What lossy decoding shows, said of the byte string alone. It is read from the front (`Shows`): a well-formed sequence is
shown as its character, and where none stands, the longest part with which one could begin, or else a single octet, is
shown as one replacement character (`IllFormed`). Lossy decoding shows just that (`lossy_eq_iff`).
-/

namespace ActorSurface

namespace Utf8

/-- Octets with which a well-formed sequence begins. -/
def Begins (octets : Bytes) : Prop :=
  ∃ lead tail, WellFormed lead tail ∧ octets <+: lead :: tail

/-- What stands at the front of a byte string is an ill-formed part, as long as such a part may be. -/
structure IllFormed (part behind : Bytes) : Prop where
  nonempty : part ≠ []
  /-- No well-formed sequence stands there. -/
  unreadable : ∀ lead tail, WellFormed lead tail → ¬ lead :: tail <+: part ++ behind
  /-- The part is a single octet, unless a well-formed sequence begins with it. -/
  begins : part.length = 1 ∨ Begins part
  /-- None begins with more of what stands there. -/
  longest : ∀ front, front <+: part ++ behind → Begins front → front.length ≤ part.length

/-- The characters that a byte string is shown as. -/
inductive Shows : Bytes → List Char → Prop
  | nil : Shows [] []
  | character {lead : UInt8} {tail behind : Bytes} {text : List Char} :
      WellFormed lead tail → Shows behind text → Shows (lead :: (tail ++ behind)) (Utf8.character lead tail :: text)
  | illFormed {part behind : Bytes} {text : List Char} :
      IllFormed part behind → Shows behind text → Shows (part ++ behind) (replacement :: text)

/-! ### What fits some ranges -/

section

variable {ranges : List Range} {tail : Bytes}

/-- What fits is the longest front with which octets may begin that lie in the ranges. -/
theorem length_le_fitting (fits : List.Forall₂ (fun range octet => range.contains octet = true) ranges tail)
    {front octets : Bytes} (here : front <+: octets) (inside : front <+: tail) :
    front.length ≤ (fitting ranges octets).1.length := by
  induction fits generalizing front octets with
  | nil =>
    obtain rfl := List.prefix_nil.mp inside
    exact Nat.zero_le _
  | @cons range octet ranges tail contained _ ih =>
    cases front with
    | nil => exact Nat.zero_le _
    | cons first front =>
      obtain ⟨rfl, rest⟩ := List.cons_prefix_cons.mp inside
      obtain ⟨behind, rfl⟩ := here
      have shorter := ih (List.prefix_append front behind) rest
      rw [List.cons_append, fitting, if_pos contained]
      simpa using shorter

/-- What fits can be completed, where no range is empty. -/
theorem exists_completion (proper : ∀ range ∈ ranges, range.Proper) (octets : Bytes) :
    ∃ tail, List.Forall₂ (fun range octet => range.contains octet = true) ranges tail ∧
      (fitting ranges octets).1 <+: tail := by
  induction ranges generalizing octets with
  | nil => exact ⟨[], .nil, by simp [fitting]⟩
  | cons range ranges ih =>
    have others := ih fun other listed => proper other (List.mem_cons_of_mem _ listed)
    have lowest := (proper range List.mem_cons_self).1
    cases octets with
    | nil =>
      obtain ⟨tail, fits, -⟩ := others []
      exact ⟨range.low :: tail, .cons lowest fits, by simp [fitting]⟩
    | cons octet octets =>
      obtain ⟨tail, fits, begins⟩ := others octets
      by_cases contained : range.contains octet = true
      · refine ⟨octet :: tail, .cons contained fits, ?_⟩
        rw [fitting, if_pos contained]
        exact List.cons_prefix_cons.mpr ⟨rfl, begins⟩
      · refine ⟨range.low :: tail, .cons lowest fits, ?_⟩
        rw [fitting, if_neg contained]
        exact List.nil_prefix

end

/-! ### Chunks -/

variable {lead : UInt8} {octets : Bytes}

/-- A well-formed sequence that begins with a front of some octets has the lead of these, and as many octets of the
    front as fit what follows that. -/
theorem Begins.cases {front : Bytes} (begins : Begins front) (here : front <+: lead :: octets) :
    front = [] ∨ ∃ ranges, following lead = some ranges ∧
      front.length ≤ (fitting ranges octets).1.length + 1 := by
  obtain ⟨first, tail, wellFormed, inside⟩ := begins
  cases front with
  | nil => exact .inl rfl
  | cons octet front =>
    obtain ⟨rfl, inTail⟩ := List.cons_prefix_cons.mp inside
    obtain ⟨rfl, inOctets⟩ := List.cons_prefix_cons.mp here
    obtain ⟨ranges, follows, fits⟩ := fits_of_wellFormed wellFormed
    exact .inr ⟨ranges, follows, Nat.succ_le_succ (length_le_fitting fits inOctets inTail)⟩

/-- A chunk is a well-formed sequence with its character, or a maximal ill-formed part. -/
theorem cut_cases (lead : UInt8) (octets : Bytes) :
    (∃ tail behind, octets = tail ++ behind ∧ WellFormed lead tail ∧
        Chunk.cut lead octets = (.character (character lead tail) (lead :: tail), behind)) ∨
      ∃ part behind, lead :: octets = part ++ behind ∧ IllFormed part behind ∧
        Chunk.cut lead octets = (.malformed part, behind) := by
  unfold Chunk.cut
  cases follows : following lead with
  | none =>
    have outside : ∀ front, front <+: lead :: octets → Begins front → front = [] := by
      intro front here begins
      rcases begins.cases here with empty | ⟨ranges, some, -⟩
      · exact empty
      · rw [follows] at some
        cases some
    refine .inr ⟨[lead], octets, rfl, ⟨by simp, ?_, .inl rfl, ?_⟩, rfl⟩
    · intro first tail wellFormed here
      cases outside _ here ⟨first, tail, wellFormed, List.prefix_rfl⟩
    · intro front here begins
      rw [outside front here begins]
      exact Nat.zero_le _
  | some ranges =>
    have whole := fitting_append ranges octets
    dsimp only
    split_ifs with complete
    · have wellFormed := wellFormed_of_fits follows (forall₂_of_fitting complete)
      exact .inl ⟨_, _, whole.symm, wellFormed, rfl⟩
    · obtain ⟨completed, fits, inside⟩ := exists_completion (proper_of_following follows) octets
      have shorter : (fitting ranges octets).1.length < ranges.length := by
        have bound := inside.length_le
        rw [← fits.length_eq] at bound
        omega
      have longest : ∀ front, front <+: lead :: (fitting ranges octets).1 ++ (fitting ranges octets).2 →
          Begins front → front.length ≤ (lead :: (fitting ranges octets).1).length := by
        intro front here begins
        rw [List.cons_append, whole] at here
        rcases begins.cases here with rfl | ⟨same, some, bound⟩
        · exact Nat.zero_le _
        · rw [follows] at some
          cases some
          exact bound
      refine .inr ⟨_, _, by rw [List.cons_append, whole], ⟨by simp, ?_, .inr ?_, longest⟩, rfl⟩
      · -- All of a well-formed sequence would fit.
        intro first tail wellFormed here
        have bound := longest _ here ⟨first, tail, wellFormed, List.prefix_rfl⟩
        rw [List.cons_append, List.cons_prefix_cons] at here
        obtain ⟨rfl, -⟩ := here
        obtain ⟨same, some, fitsAll⟩ := fits_of_wellFormed wellFormed
        rw [follows] at some
        cases some
        rw [List.length_cons, List.length_cons, ← fitsAll.length_eq] at bound
        omega
      · exact ⟨lead, completed, wellFormed_of_fits follows fits, List.cons_prefix_cons.mpr ⟨rfl, inside⟩⟩

/-- A maximal ill-formed part is cut off as such. -/
theorem cut_of_illFormed {part behind : Bytes} (illFormed : IllFormed part behind)
    (whole : lead :: octets = part ++ behind) : Chunk.cut lead octets = (.malformed part, behind) := by
  rcases cut_cases lead octets with ⟨tail, rest, rfl, wellFormed, -⟩ | ⟨other, rest, split, ill, cut⟩
  · refine absurd ?_ (illFormed.unreadable lead tail wellFormed)
    rw [← whole, ← List.cons_append]
    exact List.prefix_append _ _
  · have nonempty := List.length_pos_iff.mpr illFormed.nonempty
    have nonemptyOther := List.length_pos_iff.mpr ill.nonempty
    have one : part.length ≤ other.length := by
      rcases illFormed.begins with single | begins
      · omega
      · exact ill.longest part (by rw [← split, whole]; exact List.prefix_append _ _) begins
    have two : other.length ≤ part.length := by
      rcases ill.begins with single | begins
      · omega
      · exact illFormed.longest other (by rw [← whole, split]; exact List.prefix_append _ _) begins
    obtain ⟨rfl, rfl⟩ := List.append_inj (split.symm.trans whole) (Nat.le_antisymm two one)
    exact cut

/-! ### Texts -/

theorem shows_chunks (octets : Bytes) : Shows octets ((chunks octets).map Chunk.shown) := by
  fun_induction chunks octets with
  | case1 => exact .nil
  | case2 lead octets cut ih =>
    rcases cut_cases lead octets with ⟨tail, behind, rfl, wellFormed, found⟩ | ⟨part, behind, split, ill, found⟩
    · rw [show cut = _ from found] at ih ⊢
      exact .character wellFormed ih
    · rw [show cut = _ from found] at ih ⊢
      rw [split]
      exact .illFormed ill ih

theorem Shows.eq_chunks {octets : Bytes} {text : List Char} (shows : Shows octets text) :
    text = (chunks octets).map Chunk.shown := by
  induction shows with
  | nil => simp [chunks]
  | character wellFormed _ ih =>
    rw [chunks, cut_of_wellFormed wellFormed, ih]
    rfl
  | @illFormed part behind text ill _ ih =>
    obtain ⟨lead, octets, rfl⟩ := List.exists_cons_of_ne_nil ill.nonempty
    have cut : Chunk.cut lead (octets ++ behind) = (.malformed (lead :: octets), behind) := cut_of_illFormed ill rfl
    rw [List.cons_append, chunks, cut, ih]
    rfl

/-- Lossy decoding shows the characters of the well-formed sequences, and one replacement character for each maximal
    ill-formed part. -/
theorem lossy_eq_iff {octets : Bytes} {text : String} : lossy octets = text ↔ Shows octets text.toList := by
  constructor
  · rintro rfl
    rw [lossy, String.toList_ofList]
    exact shows_chunks octets
  · intro shows
    rw [lossy, ← shows.eq_chunks, String.ofList_toList]

end Utf8

end ActorSurface
