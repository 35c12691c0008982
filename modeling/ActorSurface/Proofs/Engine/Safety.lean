import ActorSurface.Engine.Surface
import ActorSurface.Proofs.Actor.Heading
import ActorSurface.Proofs.Actor.Turns

/-!
The engine answers every request. The parts of what the scan holds fit together in every state that it reaches, so no cut,
no place in a list and no counter is out of range there. The scan comes to an end on every text, and the engine answers
with an output, its warnings in the order of the source, or with the failure of a line (`surface_safe`).
-/

namespace ActorSurface

namespace Engine

open Actor (Declaration Keeps Loop Scans State lexemes)

/-- How a request is performed where the scan of its text is checked: to a trap, or to an outcome. -/
inductive Performs (request : Request) : Except Trap Outcome → Prop
  | trapped {trap : Trap} : Scans request.text (.error (.trap trap)) → Performs request (.error trap)
  | refused {fault : Located Actor.Fault} : Scans request.text (.error (.fault fault)) →
      Performs request (.ok (.failed (.ofFault fault)))
  | produced {declarations : List Declaration} : Scans request.text (.ok declarations) →
      Performs request (.ok (.produced ⟨request.layout, idleWarnings request.options declarations⟩))

/-- What holds of the scan and of the engine on a request, whatever its text is. -/
structure Safe (request : Request) : Prop where
  /-- What the scan holds behind any front of the items of the text fits together. -/
  states : ∀ front state, front <+: Token.items request.text.toList →
    front.foldlM State.step State.initial = .ok state → state.Consistent
  /-- No step changes a declaration but that of the actor whose body is open. -/
  steps : ∀ (state next : State) item, state.step item = .ok next →
    Keeps state.current state.declarations next.declarations
  /-- What the loop holds between two turns fits together, and no turn changes a declaration but that of the actor whose
      body is open. -/
  turns : ∀ loop, (Loop.atStart (.ofText request.text.toList)).Reaches loop → loop.state.Consistent ∧
    ∀ next, loop.turn = .ok (.onward next) → Keeps loop.current loop.declarations next.declarations
  /-- The request is performed to an end, in one way, without a trap. -/
  performs : ∀ result, Performs request result ↔ result = .ok (surface request)
  /-- What fails is blamed on a line. -/
  answers : (∃ line message, surface request = .failed (.source line message)) ∨
    ∃ output, surface request = .produced output
  /-- The warnings are about declarations of the text, in its order. -/
  warnings : ∀ output, surface request = .produced output → ∃ declarations,
    Actor.Grammar.File (lexemes request.text) declarations ∧
      output.warnings.Sublist (declarations.map Declaration.idleWarning) ∧
      output.warnings.Pairwise fun earlier later => earlier.line ≤ later.line

theorem idleWarnings_sublist (options : Options) (declarations : List Declaration) :
    (idleWarnings options declarations).Sublist (declarations.map Declaration.idleWarning) := by
  unfold idleWarnings
  split
  · exact List.filter_sublist.map _
  · exact List.nil_sublist _

/-- A request is performed to an end, without a trap, and as the engine answers it. -/
theorem performs_iff {request : Request} {result : Except Trap Outcome} :
    Performs request result ↔ result = .ok (surface request) := by
  constructor
  · intro performs
    unfold surface
    cases performs with
    | trapped scans => exact absurd scans Actor.not_scans_trap
    | refused scans => rw [Actor.scans_fault_iff.mp scans]
    | produced scans => rw [Actor.scans_ok_iff.mp scans]
  · rintro rfl
    unfold surface
    cases scanned : Actor.scan request.text with
    | error fault => exact .refused (Actor.scans_fault_iff.mpr scanned)
    | ok declarations => exact .produced (Actor.scans_ok_iff.mpr scanned)

/-- An engine that goes through has scanned its text, and warns about the declarations there. -/
theorem surface_eq_produced {request : Request} {output : Output} (ends : surface request = .produced output) :
    ∃ declarations, Actor.scan request.text = .ok declarations ∧
      output.warnings = idleWarnings request.options declarations := by
  unfold surface at ends
  split at ends
  next => cases ends
  next declarations scanned =>
    cases ends
    exact ⟨declarations, scanned, rfl⟩

/-- The engine is safe on every request. -/
theorem surface_safe (request : Request) : Safe request where
  states front state early goes := State.consistent_of_run early goes
  steps state next item ends := State.keeps_of_step ends
  turns loop reaches := by
    obtain ⟨front, state, follows⟩ := reaches.follows
    refine ⟨follows.consistent, fun next goesOn => ?_⟩
    have turned := follows.turn
    rw [goesOn] at turned
    cases turned with
    | onward _ _ keeps => exact keeps
  performs result := performs_iff
  answers := by
    unfold surface
    cases Actor.scan request.text with
    | error fault => exact .inl ⟨_, _, rfl⟩
    | ok declarations => exact .inr ⟨_, rfl⟩
  warnings output ends := by
    obtain ⟨declarations, scanned, warnings⟩ := surface_eq_produced ends
    have some_of := idleWarnings_sublist request.options declarations
    have ordered : (declarations.map Declaration.idleWarning).Pairwise fun earlier later => earlier.line ≤ later.line :=
      List.pairwise_map.mpr (Actor.declarations_pairwise_of_scan scanned)
    rw [← warnings] at some_of
    exact ⟨declarations, Actor.file_of_scan scanned, some_of, ordered.sublist some_of⟩

end Engine

end ActorSurface
