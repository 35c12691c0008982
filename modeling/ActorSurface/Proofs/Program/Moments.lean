import ActorSurface.Program.Lapses
import ActorSurface.Proofs.Program.Steps

/-!
What holds at every moment of a run, and behind it, whichever of its calls lapse (`Program.Keeps`). A sequence keeps a
property throughout if its first part does, and comes to worlds from which the others do (`Keeps.bind`); and so does a
program that makes only calls which keep it (`MakesOnly.keeps`).
-/

namespace ActorSurface

open FileSystem (Location)

namespace Program

variable {α β : Type}

/-- A property holds of every world through which a run can pass, and another of each result with the last of them. -/
def Keeps (kept : World → Prop) (ends : α → World → Prop) : Program Location α → World → Prop
  | .done result, world => kept world ∧ ends result world
  | .call first next, world =>
    kept world ∧ ∀ answer behind, first.Yields world answer behind → (next answer).Keeps kept ends behind

namespace Keeps

variable {kept : World → Prop} {ends : α → World → Prop} {program : Program Location α} {world moment : World}

/-- What is kept holds at every moment. -/
theorem throughout (keeps : program.Keeps kept ends world) (passes : program.PassesThrough world moment) :
    kept moment := by
  induction passes with
  | @here program world =>
    cases program with
    | done result => exact keeps.1
    | call first next => exact keeps.1
  | later yields _ ih => exact ih (keeps.2 _ _ yields)

theorem pure {result : α} (holds : kept world) (ended : ends result world) :
    (Pure.pure result : Program Location α).Keeps kept ends world :=
  ⟨holds, ended⟩

theorem ofCall {call : Call Location α} (holds : kept world)
    (behind : ∀ answer after, call.Yields world answer after → kept after ∧ ends answer after) :
    (Program.ofCall call).Keeps kept ends world :=
  ⟨holds, behind⟩

theorem bind {next : α → Program Location β} {final : β → World → Prop}
    (first : program.Keeps kept (fun value after => (next value).Keeps kept final after) world) :
    (program >>= next).Keeps kept final world := by
  induction program generalizing world with
  | done result => exact first.2
  | call single rest ih => exact ⟨first.1, fun answer behind yields => ih answer (first.2 answer behind yields)⟩

/-- What is kept holds of what a run comes to, too. -/
theorem ended {others : α → World → Prop} (keeps : program.Keeps kept ends world)
    (implies : ∀ value after, kept after → ends value after → others value after) : program.Keeps kept others world := by
  induction program generalizing world with
  | done result => exact ⟨keeps.1, implies _ _ keeps.1 keeps.2⟩
  | call single rest ih => exact ⟨keeps.1, fun answer behind yields => ih answer (keeps.2 answer behind yields)⟩

theorem weaken {weaker : World → Prop} (keeps : program.Keeps kept ends world)
    (implies : ∀ moment, kept moment → weaker moment) : program.Keeps weaker ends world := by
  induction program generalizing world with
  | done result => exact ⟨implies _ keeps.1, keeps.2⟩
  | call single rest ih =>
    exact ⟨implies _ keeps.1, fun answer behind yields => ih answer (keeps.2 answer behind yields)⟩

end Keeps

/-- What the calls of a kind keep, lapses or not, holds throughout a run that makes no others, and behind it. -/
theorem MakesOnly.keeps {kind : ∀ {β : Type}, Call Location β → Prop} {program : Program Location α}
    (only : program.MakesOnly kind) (kept : World → Prop)
    (keeps : ∀ {β : Type} (call : Call Location β) (world behind : World) (answer : β), kind call → kept world →
      call.Yields world answer behind → kept behind)
    (world : World) (holds : kept world) : program.Keeps kept (fun _ after => kept after) world := by
  induction program generalizing world with
  | done result => exact ⟨holds, holds⟩
  | call first next ih =>
    exact ⟨holds, fun answer behind yields => ih answer (only.2 answer) behind (keeps first world behind answer only.1 holds yields)⟩

end Program

end ActorSurface
