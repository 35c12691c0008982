import ActorSurface.Program.Trace

/-!
Runs in which calls on files can fail for other reasons than what stands in the files: a device has no room left, or is
taken away. Such a call leaves the files as they are, but for a write, which may have stored a part of its bytes; and
what is asked for may not be seen. A run passes through the world before each of its calls, and through the last
(`PassesThrough`), and the worlds of the run in which no call fails so are among these (`passesThrough_of_mem_worlds`).
-/

namespace ActorSurface

open FileSystem (Location)

/-- What a call can answer and leave behind when it fails for a reason outside of the modelled world. -/
def Call.Lapses {α : Type} : Call Location α → World → α → World → Prop
  | .readText _, world, answer, behind => (∃ fault, answer = .error fault) ∧ behind = world
  | .create _, world, answer, behind => (∃ fault, answer = .error fault) ∧ behind = world
  | .write file octets, world, answer, behind => (∃ fault, answer = .error fault) ∧
    ∃ stored, stored <+: octets ∧ behind = { world with files := world.files.write file stored }
  | .sync _, world, answer, behind => (∃ fault, answer = .error fault) ∧ behind = world
  | .isPresent _, world, answer, behind => answer = false ∧ behind = world
  | .setReadOnly _ _, world, answer, behind => (∃ fault, answer = .error fault) ∧ behind = world
  | .unlink _, world, answer, behind => (∃ fault, answer = .error fault) ∧ behind = world
  | .rename _ _, world, answer, behind => (∃ fault, answer = .error fault) ∧ behind = world
  | .print _ _, _, _, _ => False

/-- What can come of a call: what the modelled world makes of it, or a lapse. -/
def Call.Yields {α : Type} (call : Call Location α) (world : World) (answer : α) (behind : World) : Prop :=
  call.run world = (answer, behind) ∨ call.Lapses world answer behind

namespace Program

variable {α : Type}

/-- A run from a world can pass through another. -/
inductive PassesThrough : Program Location α → World → World → Prop
  | here {program : Program Location α} {world : World} : PassesThrough program world world
  | later {β : Type} {first : Call Location β} {next : β → Program Location α} {world behind moment : World} {answer : β} :
      first.Yields world answer behind → PassesThrough (next answer) behind moment →
      PassesThrough (.call first next) world moment

theorem worlds_call {β : Type} (first : Call Location β) (next : β → Program Location α) (world : World) :
    (call first next).worlds world = world :: (next (first.run world).1).worlds (first.run world).2 := rfl

/-- The worlds of a run without lapses are some of those through which it can pass. -/
theorem passesThrough_of_mem_worlds {program : Program Location α} {world moment : World}
    (listed : moment ∈ program.worlds world) : program.PassesThrough world moment := by
  induction program generalizing world with
  | done result =>
    rw [List.mem_singleton.mp listed]
    exact .here
  | call first next ih =>
    rw [worlds_call] at listed
    rcases List.mem_cons.mp listed with rfl | later
    · exact .here
    · exact .later (.inl rfl) (ih _ later)

end Program

end ActorSurface
