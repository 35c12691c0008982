import ActorSurface.Proofs.Sink

/-!
Diagnostics reported one after the other. Each of them is written as a record, its text and the newline that ends it
(`Diagnostic.record`), and no report is told whether the sink took the one before. A sink that stops accepting therefore
holds a front of the records and nothing else (`reportAll_limited`), wherever the end of its capacity falls: inside a
record, before its newline or inside a character.
-/

namespace ActorSurface

/-- The bytes that a diagnostic about a file makes. -/
def Diagnostic.record (file : String) (diagnostic : Diagnostic) : Bytes :=
  Utf8.encode (diagnostic.text file ++ "\n")

namespace Sink

/-- Reports diagnostics, each about some file, in order. -/
def reportAll (sink : Sink) : List (String × Diagnostic) → Sink
  | [] => sink
  | (file, diagnostic) :: reports => (sink.report file diagnostic).reportAll reports

/-- The records of some reports, one behind the other. -/
def records (reports : List (String × Diagnostic)) : Bytes :=
  reports.flatMap fun (file, diagnostic) => diagnostic.record file

/-- A sink that accepts everything holds one record more behind a report. -/
theorem report_of_unlimited {sink : Sink} (accepts : sink.room = none) (file : String) (diagnostic : Diagnostic) :
    sink.report file diagnostic = { sink with held := sink.held ++ diagnostic.record file } := by
  rw [report, writeLine_of_unlimited accepts]
  rfl

/-- A sink that accepts everything holds all records behind the reports. -/
theorem reportAll_of_unlimited {sink : Sink} (accepts : sink.room = none) (reports : List (String × Diagnostic)) :
    sink.reportAll reports = { sink with held := sink.held ++ records reports } := by
  induction reports generalizing sink with
  | nil => simp [reportAll, records]
  | cons report reports ih =>
    obtain ⟨file, diagnostic⟩ := report
    rw [reportAll, report_of_unlimited accepts, ih (by exact accepts)]
    simp [records]

variable {capacity : Nat} {cut whole : Sink}

/-- A report adds to a sink of some capacity what fits of its record. -/
theorem Cut.report (related : Cut capacity cut whole) (file : String) (diagnostic : Diagnostic) :
    Cut capacity (cut.report file diagnostic) (whole.report file diagnostic) :=
  related.writeLine _

/-- So do reports that go on behind one that failed. -/
theorem Cut.reportAll (related : Cut capacity cut whole) (reports : List (String × Diagnostic)) :
    Cut capacity (cut.reportAll reports) (whole.reportAll reports) := by
  induction reports generalizing cut whole with
  | nil => exact related
  | cons report reports ih =>
    obtain ⟨file, diagnostic⟩ := report
    exact ih (related.report file diagnostic)

/-- Whatever is reported to a sink of some capacity, it holds the front of what a sink that accepts everything holds: as
    many bytes as the capacity, or all of them. The latter holds the records in order, and nothing else. -/
theorem reportAll_limited (capacity : Nat) (reports : List (String × Diagnostic)) :
    let total := (unlimited.reportAll reports).held
    total = records reports ∧
      ((limited capacity).reportAll reports).held = total.take (min capacity total.length) := by
  intro total
  have whole : total = records reports := by
    show (unlimited.reportAll reports).held = _
    rw [reportAll_of_unlimited rfl]
    exact List.nil_append _
  have cut := (cut_limited capacity).reportAll reports
  refine ⟨whole, ?_⟩
  rw [cut.held]
  exact List.take_eq_take_min

end Sink

end ActorSurface
