import ActorSurface.Proofs.Program.Steps

/-!
Two programs that go the same way on the files, whatever each of them prints (`Agree`). What they answer may differ, as
long as it stands in a relation; sequences agree if their parts do (`Agree.bind`).
-/

namespace ActorSurface

namespace Program

open FileSystem (Location)

variable {α β γ δ : Type}

/-- On the same files, two programs give related results and leave the same files. -/
def Agree (related : α → β → Prop) (one : Program Location α) (other : Program Location β) : Prop :=
  ∀ world twin : World, world.files = twin.files →
    related (one.run world).1 (other.run twin).1 ∧ (one.run world).2.files = (other.run twin).2.files

theorem Heedless.agree_self {program : Program Location α} (heedless : program.Heedless) : Agree Eq program program := by
  intro world twin same
  exact heedless.run_of_same_files same

theorem agree_pure {related : α → β → Prop} {value : α} {result : β} (holds : related value result) :
    Agree related (pure value : Program Location α) (pure result) := by
  intro world twin same
  exact ⟨holds, same⟩

/-- Programs that leave the files as they are agree. -/
theorem agree_of_same_files {one : Program Location α} {other : Program Location β}
    (keeps : ∀ world, (one.run world).2.files = world.files) (keepsToo : ∀ world, (other.run world).2.files = world.files) :
    Agree (fun _ _ => True) one other := by
  intro world twin same
  exact ⟨trivial, by rw [keeps, keepsToo, same]⟩

theorem Agree.bind {related : α → β → Prop} {final : γ → δ → Prop} {one : Program Location α} {other : Program Location β}
    {next : α → Program Location γ} {following : β → Program Location δ} (first : Agree related one other)
    (rest : ∀ value result, related value result → Agree final (next value) (following result)) :
    Agree final (one >>= next) (other >>= following) := by
  intro world twin same
  obtain ⟨holds, files⟩ := first world twin same
  rw [run_bind, run_bind]
  exact rest _ _ holds _ _ files

end Program

end ActorSurface
