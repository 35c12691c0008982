import ActorSurface.FileSystem.Calls

/-!
Equations between the states of a file system. What was put at a location and is put there anew or taken away leaves no
trace, so that calls which undo each other lead back to one and the same state.
-/

namespace ActorSurface

namespace FileSystem

section

variable (files : FileSystem) (location other : Location) (entry later : Entry)

theorem put_put : (files.put location entry).put location later = files.put location later := by
  simp [put]

theorem erase_put : (files.put location entry).erase location = files.erase location := by
  simp [put, erase]

theorem put_erase : (files.erase location).put location entry = files.put location entry := by
  simp [put, erase]

theorem erase_comm : (files.erase location).erase other = (files.erase other).erase location := by
  simp [erase, Bool.and_comm]

end

/-- Taking away what is not there changes nothing. -/
theorem erase_of_free {files : FileSystem} {location : Location} (free : files.get? location = none) :
    files.erase location = files := by
  have unlisted : ∀ place ∈ files.entries, place.1 ≠ location := by
    intro place listed same
    have present := List.lookup_eq_none_iff.mp free place listed
    simp [same] at present
  have kept : files.entries.filter (·.1 ≠ location) = files.entries := by
    rw [List.filter_eq_self]
    intro place listed
    simpa using unlisted place listed
  unfold erase
  rw [kept]

/-- Writing to a file that was put somewhere is putting it there with the bytes. -/
theorem writes_put (writes : List Bytes) (files : FileSystem) (location : Location) (mode : Mode) (content : Bytes) :
    writes.foldl (fun files octets => files.write location octets) (files.put location (.file mode content)) =
      files.put location (.file mode (content ++ writes.flatten)) := by
  induction writes generalizing content with
  | nil => simp
  | cons octets writes ih =>
    have written : (files.put location (.file mode content)).write location octets =
        files.put location (.file mode (content ++ octets)) := by
      unfold write
      rw [get?_put, if_pos rfl]
      exact put_put ..
    rw [List.foldl_cons, written, ih]
    simp

end FileSystem

end ActorSurface
