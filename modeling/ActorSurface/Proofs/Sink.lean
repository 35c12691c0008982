import ActorSurface.Sink
import ActorSurface.Proofs.Text.Decoding

/-!
Sinks that stop accepting. A sink of some capacity holds the front of what a sink that accepts everything holds, as long
as both are written the same (`Cut`): a write that does not fit is cut off at the capacity, and from then on no piece is
taken, whether it is tried or not.
-/

namespace ActorSurface

namespace Sink

/-- A sink holds, of what another holds that accepts everything, so many bytes at most, and has room for the rest of
    these. -/
structure Cut (capacity : Nat) (cut whole : Sink) : Prop where
  accepts : whole.room = none
  held : cut.held = whole.held.take capacity
  room : cut.room = some (capacity - whole.held.length)

theorem cut_limited (capacity : Nat) : Cut capacity (.limited capacity) .unlimited :=
  ⟨rfl, (List.take_nil).symm, rfl⟩

/-- A sink that accepts everything takes all pieces. -/
theorem writeAll_of_accepts {sink : Sink} (accepts : sink.room = none) (pieces : List Bytes) :
    sink.writeAll pieces = (true, { sink with held := sink.held ++ pieces.flatten }) := by
  induction pieces generalizing sink with
  | nil => simp [writeAll]
  | cons octets pieces ih =>
    have taken : sink.write octets = (true, { sink with held := sink.held ++ octets }) := by
      unfold write
      rw [accepts]
    have others := @ih { sink with held := sink.held ++ octets } accepts
    simp [writeAll, taken, others]

/-- A sink that accepts everything takes a line whole. -/
theorem writeLine_of_unlimited {sink : Sink} (accepts : sink.room = none) (line : String) :
    sink.writeLine line = (true, { sink with held := sink.held ++ Utf8.encode (line ++ "\n") }) := by
  rw [writeLine, writeAll_of_accepts accepts]
  simp [Utf8.encode_append]

theorem held_writeLine_unlimited (line : String) : (unlimited.writeLine line).2.held = Utf8.encode (line ++ "\n") := by
  rw [writeLine_of_unlimited rfl]
  exact List.nil_append _

namespace Cut

variable {capacity : Nat} {cut whole : Sink}

/-- A write takes what fits. -/
theorem write (related : Cut capacity cut whole) (octets : Bytes) :
    Cut capacity (cut.write octets).2 { whole with held := whole.held ++ octets } := by
  obtain ⟨held, room⟩ := cut
  obtain ⟨accepts, rfl, rfl⟩ := related
  refine ⟨accepts, ?_, ?_⟩
  · exact List.take_append.symm
  · show some (capacity - whole.held.length - octets.length) = some (capacity - (whole.held ++ octets).length)
    rw [List.length_append, Nat.sub_add_eq]

/-- A write that fails has filled the sink. -/
theorem filled_of_write (related : Cut capacity cut whole) {octets : Bytes} (fails : (cut.write octets).1 = false) :
    capacity ≤ (whole.held ++ octets).length := by
  unfold Sink.write at fails
  rw [related.room] at fails
  simp only [decide_eq_false_iff_not] at fails
  rw [List.length_append]
  omega

/-- A sink that is full stays as it is, whatever the other takes. -/
theorem full (related : Cut capacity cut whole) (filled : capacity ≤ whole.held.length) (more : Bytes) :
    Cut capacity cut { whole with held := whole.held ++ more } := by
  refine ⟨related.accepts, ?_, ?_⟩
  · rw [related.held]
    exact (List.take_append_of_le_length filled).symm
  · rw [related.room, List.length_append]
    congr 1
    omega

theorem writeAll (related : Cut capacity cut whole) (pieces : List Bytes) :
    Cut capacity (cut.writeAll pieces).2 (whole.writeAll pieces).2 := by
  rw [writeAll_of_accepts related.accepts]
  induction pieces generalizing cut whole with
  | nil => simpa [Sink.writeAll] using related
  | cons octets pieces ih =>
    have wrote := related.write octets
    have filled := @filled_of_write _ _ _ related octets
    rw [List.flatten_cons, ← List.append_assoc]
    simp only [Sink.writeAll]
    cases written : cut.write octets with
    | mk taken behind =>
      rw [written] at wrote filled
      cases taken with
      | true => exact ih wrote
      | false => exact wrote.full (filled rfl) pieces.flatten

theorem writeLine (related : Cut capacity cut whole) (line : String) :
    Cut capacity (cut.writeLine line).2 (whole.writeLine line).2 :=
  related.writeAll _

end Cut

end Sink

end ActorSurface
