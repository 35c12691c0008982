import ActorSurface.FileSystem.Path

/-!
Paths that are made of another by bytes at its end. Without a separator among them they belong to the last
name (`ofBytes_append`), so that both paths lead through the same directories.
-/

namespace ActorSurface

namespace FileSystem

namespace Path

theorem stretches_plain {octets : Bytes} (plain : separator ∉ octets) : stretches octets = [octets] := by
  induction octets with
  | nil => rfl
  | cons octet octets ih =>
    simp only [List.mem_cons, not_or] at plain
    rw [stretches, if_neg (Ne.symm plain.1), ih plain.2]

/-- The last stretch takes what is added without a separator. It is empty only where the bytes end with one. -/
theorem stretches_append (octets : Bytes) :
    ∃ stretched last, stretches octets = stretched ++ [last] ∧
      (last = [] → octets = [] ∨ octets.getLast? = some separator) ∧
      ∀ more, separator ∉ more → stretches (octets ++ more) = stretched ++ [last ++ more] := by
  induction octets with
  | nil => exact ⟨[], [], rfl, fun _ => .inl rfl, fun more plain => stretches_plain plain⟩
  | cons octet octets ih =>
    obtain ⟨stretched, last, split, empty, extend⟩ := ih
    by_cases separates : octet = separator
    · refine ⟨[] :: stretched, last, by rw [stretches, if_pos separates, split]; rfl, fun none => .inr ?_, ?_⟩
      · rcases empty none with rfl | ends
        · simp [separates]
        · simp [List.getLast?_cons, ends]
      · intro more plain
        rw [List.cons_append, stretches, if_pos separates, extend more plain]
        rfl
    cases stretched with
    | nil =>
      refine ⟨[], octet :: last, by rw [stretches, if_neg separates, split]; rfl, nofun, ?_⟩
      intro more plain
      rw [List.cons_append, stretches, if_neg separates, extend more plain]
      rfl
    | cons first stretched =>
      refine ⟨(octet :: first) :: stretched, last, by rw [stretches, if_neg separates, split]; rfl, ?_, ?_⟩
      · intro none
        rcases empty none with rfl | ends
        · simp [stretches] at split
        · exact .inr (by simp [List.getLast?_cons, ends])
      · intro more plain
        rw [List.cons_append, stretches, if_neg separates, extend more plain]
        rfl

theorem ofArgument_eq_ok {octets : Bytes} {parts : Path} (accepted : ofArgument octets = .ok parts) :
    octets ≠ [] ∧ parts = ofBytes octets := by
  unfold ofArgument at accepted
  split at accepted
  next => cases accepted
  split at accepted
  next => cases accepted
  next filled =>
    split at accepted
    next => cases accepted
    next => exact ⟨by simpa using filled, (Except.ok.inj accepted).symm⟩

/-- A path that does not end with a slash has a last name, which takes what is added without one. -/
theorem ofBytes_append {octets : Bytes} (filled : octets ≠ []) (unslashed : (ofBytes octets).slash = false) :
    ∃ names last, ofBytes octets = ⟨(ofBytes octets).absolute, names ++ [last], false⟩ ∧
      ∀ more, separator ∉ more → ofBytes (octets ++ more) = ⟨(ofBytes octets).absolute, names ++ [last ++ more], false⟩ := by
  obtain ⟨stretched, last, split, empty, extend⟩ := stretches_append octets
  have ends : octets.getLast? ≠ some separator := by simpa [ofBytes] using unslashed
  have named : last ≠ [] := fun none => (empty none).elim filled ends
  refine ⟨stretched.filter (!·.isEmpty), last, ?_, fun more plain => ?_⟩
  · simp [ofBytes, split, List.filter_append, named, ends]
  · have otherEnds : more.getLast? ≠ some separator := fun same => plain (List.mem_of_getLast? same)
    have heads : (octets ++ more).head? = octets.head? := by
      obtain ⟨octet, rest, rfl⟩ := List.exists_cons_of_ne_nil filled
      rfl
    simp [ofBytes, extend more plain, List.filter_append, named, ends, otherEnds, heads]

end Path

end FileSystem

end ActorSurface
