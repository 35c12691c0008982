import ActorSurface.Proofs.Token.Munch
import ActorSurface.Token.Cursor

/-!
What a cursor delivers. The reference passes over what is skipped and delivers the token or the failure
behind it (`Delivers`), again and again (`Resumes`). However a cursor is asked for tokens, and however often
it looked ahead, what it reads next is what the reference delivers at the place where the last reading ended
(`next_iff_delivers`).
-/

namespace ActorSurface

namespace Token

/-- What the reference delivers from a text that stands at an offset, a token or the message and the place of
    a failure, and the offset and text that it leaves. -/
inductive Delivers : Nat → List Char → Except (String × Nat) Token → Nat → List Char → Prop
  | finished {offset : Nat} : Delivers offset [] (.ok (atEnd offset)) offset []
  | skip {offset place : Nat} {text taken rest behind : List Char} {outcome : Except (String × Nat) Token} :
      Reference text .skip taken rest → Delivers (offset + Utf8.size taken) rest outcome place behind →
      Delivers offset text outcome place behind
  | token {offset : Nat} {text taken rest : List Char} {kind : Kind} : Reference text (.token kind) taken rest →
      Delivers offset text (.ok ⟨kind, offset, offset + Utf8.size taken⟩) (offset + Utf8.size taken) rest
  | failure {offset : Nat} {text taken rest : List Char} {message : String} :
      Reference text (.failure message) taken rest →
      Delivers offset text (.error (message, offset)) (offset + Utf8.size taken) rest

/-- Where the reference stands after some deliveries. -/
inductive Resumes : Nat → Nat → List Char → Nat → List Char → Prop
  | here {offset : Nat} {text : List Char} : Resumes 0 offset text offset text
  | onward {count offset place final : Nat} {text rest behind : List Char}
      {outcome : Except (String × Nat) Token} : Delivers offset text outcome place rest →
      Resumes count place rest final behind → Resumes (count + 1) offset text final behind

/-- What a reading tells: a token, or the message of a fault and its offset. -/
def told (reading : Reading) : Except (String × Nat) Token :=
  reading.mapError fun misread => (misread.fault.message, misread.offset)

/-- What can be asked of a cursor. -/
inductive Call where
  | next
  | peek
  deriving DecidableEq, Repr

namespace Cursor

/-- The cursor behind a call. -/
def call (cursor : Cursor) : Call → Cursor
  | .next => cursor.next.2
  | .peek => cursor.peek.2

/-- The cursor behind some calls. -/
def after (cursor : Cursor) : List Call → Cursor
  | [] => cursor
  | call :: calls => (cursor.call call).after calls

/-- How many of some calls read on, since lookahead kept nothing for them. -/
def resumptions (cursor : Cursor) : List Call → Nat
  | [] => 0
  | call :: calls => (cursor.call call).resumptions calls + if cursor.ahead.isNone then 1 else 0

end Cursor

/-! ### One delivery -/

theorem delivers_nil_iff {offset final : Nat} {outcome : Except (String × Nat) Token} {rest : List Char} :
    Delivers offset [] outcome final rest ↔ outcome = .ok (atEnd offset) ∧ final = offset ∧ rest = [] := by
  constructor
  · rintro (_ | ⟨reference, -⟩ | reference | reference)
    · exact ⟨rfl, rfl, rfl⟩
    · exact absurd reference (not_reference_nil _ _ _)
    · exact absurd reference (not_reference_nil _ _ _)
    · exact absurd reference (not_reference_nil _ _ _)
  · rintro ⟨rfl, rfl, rfl⟩
    exact .finished

/-- The first piece decides what is delivered, or is passed over. -/
theorem delivers_cons_iff {offset final : Nat} {char : Char} {text rest : List Char}
    {outcome : Except (String × Nat) Token} {piece : Piece} {behind : List Char}
    (cut : Piece.cut char text = (piece, behind)) :
    Delivers offset (char :: text) outcome final rest ↔
      match piece.reading? offset with
      | none => Delivers (offset + piece.size) behind outcome final rest
      | some reading => outcome = told reading ∧ final = offset + piece.size ∧ rest = behind := by
  have given := reference_cut char text
  obtain ⟨form, taken⟩ := piece
  simp only [cut] at given
  constructor
  · intro delivers
    cases delivers with
    | skip reference onward =>
      obtain ⟨meant, rfl, rfl⟩ := reference.unique given
      cases form with
      | skipped what => exact onward
      | token kind => cases meant
      | malformed fault => cases meant
    | token reference =>
      obtain ⟨meant, rfl, rfl⟩ := reference.unique given
      cases form with
      | skipped what => cases meant
      | token kind =>
        cases meant
        exact ⟨rfl, rfl, rfl⟩
      | malformed fault => cases meant
    | failure reference =>
      obtain ⟨meant, rfl, rfl⟩ := reference.unique given
      cases form with
      | skipped what => cases meant
      | token kind => cases meant
      | malformed fault =>
        cases meant
        exact ⟨rfl, rfl, rfl⟩
  · intro reading
    cases form with
    | skipped what => exact .skip given reading
    | token kind =>
      obtain ⟨rfl, rfl, rfl⟩ := reading
      exact .token given
    | malformed fault =>
      obtain ⟨rfl, rfl, rfl⟩ := reading
      exact .failure given

/-- The reference delivers one thing, which is the first reading of the pieces or, where there is none, the end
    of the text, and leaves the place where the other readings begin. -/
theorem delivers_readings (offset : Nat) (text : List Char) :
    ∃ place behind, place + Utf8.size behind = offset + Utf8.size text ∧
      readingsAt place (pieces behind) = (readingsAt offset (pieces text)).tail ∧
      ∀ outcome final rest, Delivers offset text outcome final rest ↔
        outcome = told ((readingsAt offset (pieces text)).headD (.ok (atEnd (offset + Utf8.size text)))) ∧
          final = place ∧ rest = behind := by
  fun_induction pieces text generalizing offset with
  | case1 =>
    refine ⟨offset, [], rfl, by unfold pieces; rfl, fun outcome final rest => delivers_nil_iff⟩
  | case2 char text cut ih =>
    have whole := congrArg Utf8.size (Piece.cut_append char text)
    have delivers := fun outcome final rest =>
      @delivers_cons_iff offset final char text rest outcome cut.1 cut.2 rfl
    rw [Utf8.size_append] at whole
    simp only [readingsAt]
    cases reading : cut.1.reading? offset with
    | none =>
      obtain ⟨place, behind, sizes, others, only⟩ := ih (offset + cut.1.size)
      have total : offset + cut.1.size + Utf8.size cut.2 = offset + Utf8.size (char :: text) := by
        rw [← whole, Piece.size, Nat.add_assoc]
      simp only [reading, total] at delivers only sizes
      exact ⟨place, behind, sizes, others, fun outcome final rest => (delivers _ _ _).trans (only _ _ _)⟩
    | some first =>
      simp only [reading] at delivers
      refine ⟨offset + cut.1.size, cut.2, ?_, rfl, delivers⟩
      rw [← whole, Piece.size, Nat.add_assoc]

/-! ### A run of calls -/

/-- The place at which a cursor reads on. -/
structure Stands (cursor : Cursor) (offset : Nat) (text : List Char) : Prop where
  readings : cursor.pending = readingsAt offset (pieces text)
  size : cursor.size = offset + Utf8.size text

theorem stands_ofText (text : List Char) : Stands (.ofText text) 0 text :=
  ⟨rfl, (Nat.zero_add _).symm⟩

/-- Reading on is one delivery of the reference. -/
theorem stands_read {cursor : Cursor} {offset : Nat} {text : List Char} (stands : Stands cursor offset text) :
    ∃ place behind, Stands cursor.read.2 place behind ∧ ∀ outcome final rest,
      Delivers offset text outcome final rest ↔ outcome = told cursor.read.1 ∧ final = place ∧ rest = behind := by
  obtain ⟨place, behind, sizes, others, only⟩ := delivers_readings offset text
  obtain ⟨lines, size, pending, ahead⟩ := cursor
  obtain ⟨rfl, rfl⟩ := stands
  refine ⟨place, behind, ?_, ?_⟩
  · unfold Cursor.read
    cases readings : readingsAt offset (pieces text) with
    | nil => exact ⟨by simpa [readings] using others.symm, sizes.symm⟩
    | cons first later => exact ⟨by simpa [readings] using others.symm, sizes.symm⟩
  · unfold Cursor.read
    cases readings : readingsAt offset (pieces text) <;> simpa [readings] using only

/-- A call reads on where nothing is kept. -/
theorem stands_call_read {cursor : Cursor} {offset : Nat} {text : List Char} (call : Call)
    (empty : cursor.ahead = none) (stands : Stands cursor.read.2 offset text) :
    Stands (cursor.call call) offset text := by
  obtain ⟨readings, size⟩ := stands
  have next : cursor.next = cursor.read := by unfold Cursor.next; rw [empty]
  cases call with
  | next => exact ⟨by rw [Cursor.call, next, readings], by rw [Cursor.call, next, size]⟩
  | peek =>
    change Stands cursor.peek.2 offset text
    unfold Cursor.peek
    rw [next]
    split
    next token after read =>
      rw [read] at readings size
      exact ⟨readings, size⟩
    next misread after read =>
      rw [read] at readings size
      exact ⟨readings, size⟩

/-- A call for which a token is kept leaves the place. -/
theorem stands_call_kept {cursor : Cursor} {offset : Nat} {text : List Char} {token : Token} (call : Call)
    (kept : cursor.ahead = some token) (stands : Stands cursor offset text) :
    Stands (cursor.call call) offset text := by
  obtain ⟨lines, size, pending, ahead⟩ := cursor
  obtain rfl : ahead = some token := kept
  cases call <;> exact ⟨stands.readings, stands.size⟩

/-- Behind any calls a cursor stands where the reference stands after as many deliveries as were read. -/
theorem stands_after (calls : List Call) {cursor : Cursor} {offset : Nat} {text : List Char}
    (stands : Stands cursor offset text) :
    ∃ place behind, Stands (cursor.after calls) place behind ∧
      ∀ final rest, Resumes (cursor.resumptions calls) offset text final rest ↔ final = place ∧ rest = behind := by
  induction calls generalizing cursor offset text with
  | nil =>
    refine ⟨offset, text, stands, fun final rest => ⟨?_, ?_⟩⟩
    · rintro ⟨⟩
      exact ⟨rfl, rfl⟩
    · rintro ⟨rfl, rfl⟩
      exact .here
  | cons call calls ih =>
    cases ahead : cursor.ahead with
    | some token =>
      obtain ⟨place, behind, ends, only⟩ := ih (stands_call_kept call ahead stands)
      exact ⟨place, behind, ends, by simpa [Cursor.resumptions, ahead] using only⟩
    | none =>
      obtain ⟨middle, later, onward, delivers⟩ := stands_read stands
      obtain ⟨place, behind, ends, only⟩ := ih (stands_call_read call ahead onward)
      refine ⟨place, behind, ends, fun final rest => ?_⟩
      rw [← only final rest]
      simp only [Cursor.resumptions, ahead, Option.isNone_none, if_true]
      constructor
      · rintro (_ | ⟨delivered, resumed⟩)
        obtain ⟨-, rfl, rfl⟩ := (delivers _ _ _).mp delivered
        exact resumed
      · exact fun resumed => .onward ((delivers _ _ _).mpr ⟨rfl, rfl, rfl⟩) resumed

/-- Wherever a cursor over a text is to read on, whatever was asked of it before, there is one place at which
    the reference resumes after as many deliveries, and what the cursor gives next is what the reference
    delivers there. -/
theorem next_iff_delivers (text : List Char) (calls : List Call)
    (empty : ((Cursor.ofText text).after calls).ahead = none) :
    ∃ offset rest,
      (∀ place behind, Resumes ((Cursor.ofText text).resumptions calls) 0 text place behind ↔
        place = offset ∧ behind = rest) ∧
      ∀ outcome, (∃ place behind, Delivers offset rest outcome place behind) ↔
        outcome = told ((Cursor.ofText text).after calls).next.1 := by
  obtain ⟨offset, rest, stands, resumes⟩ := stands_after calls (stands_ofText text)
  obtain ⟨place, behind, -, delivers⟩ := stands_read stands
  refine ⟨offset, rest, resumes, fun outcome => ?_⟩
  have next : ((Cursor.ofText text).after calls).next = ((Cursor.ofText text).after calls).read := by
    unfold Cursor.next
    rw [empty]
  rw [next]
  constructor
  · rintro ⟨final, after, delivered⟩
    exact ((delivers _ _ _).mp delivered).1
  · rintro rfl
    exact ⟨place, behind, (delivers _ _ _).mpr ⟨rfl, rfl, rfl⟩⟩

/-- An opened comment is all that a text holds, so the first thing to read there is the failure of it. -/
theorem next_of_opened_comment : ((Cursor.ofText ['/', '*']).after []).ahead = none ∧
    told ((Cursor.ofText ['/', '*']).after []).next.1 = .error ("unterminated block comment", 0) := by
  refine ⟨rfl, ?_⟩
  obtain ⟨offset, rest, resumes, delivers⟩ := next_iff_delivers ['/', '*'] [] rfl
  obtain ⟨rfl, rfl⟩ := (resumes 0 ['/', '*']).mp .here
  exact ((delivers _).mp ⟨_, _, .failure (reference_cut '/' ['*'])⟩).symm

end Token

end ActorSurface
