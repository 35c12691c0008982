import ActorSurface.Proofs.FileSystem.Held
import ActorSurface.Proofs.Publish.Steps

/-!
What an interrupted publication leaves at a target that held a file. Until the target is cleared away it holds
what it held, and from the rename on it holds the text; but it is cleared before the rename, and a run that is
interrupted between the two leaves no target, only the staged file (`interrupted_before_rename`).
-/

namespace ActorSurface

namespace Publish

open FileSystem (Location Name Mode Sound Holds Vacant Beside)

open Program (Event)

/-- Whether a call moves a file or a link. -/
def isRename : Event → Bool
  | ⟨_, .rename _ _, _⟩ => true
  | _ => false

/-- None of some calls moves anything, and each is made on a world that has a property. -/
def Throughout (kept : World → Prop) (events : List Event) : Prop :=
  ∀ event ∈ events, isRename event = false ∧ kept event.before

namespace Throughout

variable {kept : World → Prop}

theorem nil : Throughout kept [] := fun _ listed => absurd listed List.not_mem_nil

theorem cons {event : Event} {events : List Event} (still : isRename event = false) (holds : kept event.before)
    (others : Throughout kept events) : Throughout kept (event :: events) := by
  intro made listed
  rcases List.mem_cons.mp listed with rfl | later
  · exact ⟨still, holds⟩
  · exact others made later

theorem mono {weaker : World → Prop} {events : List Event} (throughout : Throughout kept events)
    (implies : ∀ world, kept world → weaker world) : Throughout weaker events :=
  fun event listed => ⟨(throughout event listed).1, implies _ (throughout event listed).2⟩

theorem append {events others : List Event} (first : Throughout kept events) (second : Throughout kept others) :
    Throughout kept (events ++ others) := by
  intro made listed
  rcases List.mem_append.mp listed with here | later
  · exact first made here
  · exact second made later

end Throughout

/-- What each write keeps holds at each of them. -/
theorem throughout_writes (kept : World → Prop) {file : Location}
    (keeps : ∀ world octets, kept world → kept { world with files := world.files.write file octets })
    (writes : List Bytes) (world : World) (holds : kept world) :
    Throughout kept
      ((writes.forM fun octets => attempt .writing (.write file octets) : Sequence Unit).run.trace world) := by
  induction writes generalizing world with
  | nil => exact .nil
  | cons octets writes ih =>
    change Throughout kept ((attempt .writing (.write file octets) >>= fun _ =>
      writes.forM fun octets => attempt .writing (.write file octets) : Sequence Unit).run.trace world)
    rw [trace_bind_of_ok _ (run_write file octets world), trace_attempt]
    exact .cons rfl holds (ih _ (keeps world octets holds))

section

variable {world : World} {intent : Intent} {directory : Location} {name other : Name} {mode stagedMode : Mode}
  {content text : Bytes}

/-- Staging beside a file leaves it, and puts the text into the staged file. -/
theorem stage_beside (writes : List Bytes) {opened : FileSystem} {staged : Option (Mode × Bytes)}
    (created : world.files.create intent.temporary = .ok (other :: directory, opened))
    (found : Beside world.files intent.target intent.temporary directory name other (some (mode, content)) staged)
    (empty : Beside opened intent.target intent.temporary directory name other (some (mode, content))
      (some (stagedMode, []))) :
    ∃ after, (stage intent writes : Sequence Unit).run.run world = (.ok (), after) ∧
      Throughout (fun world => Holds world.files intent.target content)
        ((stage intent writes : Sequence Unit).run.trace world) ∧
      Beside after.files intent.target intent.temporary directory name other (some (mode, content))
        (some (stagedMode, writes.flatten)) := by
  have creates := run_create_of_ok created
  have wrote := run_writes (other :: directory) writes { world with files := opened }
  -- The writes keep the two files beside each other, whatever is in the staged one by then.
  have writing := throughout_writes (fun world => ∃ text, Beside world.files intent.target intent.temporary
    directory name other (some (mode, content)) (some (stagedMode, text)))
    (fun _ octets ⟨text, kept⟩ => ⟨text ++ octets, (kept.swap.write octets).swap⟩) writes
    { world with files := opened } ⟨[], empty⟩
  have written := (empty.swap.writes writes).swap
  refine ⟨{ world with files := writes.foldl (fun files octets => files.write (other :: directory) octets) opened },
    ?_, ?_, written⟩
  · exact run_stage_of_create writes created
  · unfold stage
    rw [trace_bind_of_ok _ creates, trace_attempt, trace_bind_of_ok _ wrote, trace_attempt]
    have throughout := writing.mono fun world ⟨text, kept⟩ => kept.holds
    exact .cons rfl found.holds (throughout.append (.cons rfl written.holds .nil))

/-- Clearing a file away: it is looked up, unprotected and removed. -/
theorem clear_beside (found : Beside world.files intent.target intent.temporary directory name other
      (some (mode, content)) (some (stagedMode, text))) :
    ∃ after, (clear intent : Sequence Unit).run.run world = (.ok (), after) ∧
      Throughout (fun world => Holds world.files intent.target content)
        ((clear intent : Sequence Unit).run.trace world) ∧
      Beside after.files intent.target intent.temporary directory name other none (some (stagedMode, text)) := by
  obtain ⟨files, changed, unprotected⟩ := found.changeMode false
  obtain ⟨final, removed, cleared⟩ := unprotected.unlink
  have asks := run_ask intent.target world
  have present : world.files.isPresent intent.target = true := found.isPresent
  rw [present] at asks
  have asked : (ExceptT.lift (Program.ofCall (.isPresent intent.target)) : Sequence Bool).run.trace world =
      [⟨_, .isPresent intent.target, world⟩] := rfl
  have unprotects := run_attempt_of_ok .unprotecting (Call.run_setReadOnly world intent.target false) changed
  have removes := run_attempt_of_ok .removing (Call.run_unlink { world with files } intent.target) removed
  refine ⟨{ world with files := final }, ?_, ?_, cleared⟩
  · unfold clear
    rw [run_bind_of_ok _ asks, if_pos rfl, run_bind_of_ok _ unprotects, removes]
  · unfold clear
    rw [trace_bind_of_ok _ asks, asked, if_pos rfl, trace_bind_of_ok _ unprotects, trace_attempt, trace_attempt]
    exact .cons rfl found.holds (.cons rfl found.holds (.cons rfl unprotected.holds .nil))

/-- Replacing a file by the staged one beside it: the file is held while it is cleared away, nothing is there at the
    rename, and the staged text is held from then on. -/
theorem replace_beside (found : Beside world.files intent.target intent.temporary directory name other
      (some (mode, content)) (some (stagedMode, text))) :
    ∃ clearing cleared published final,
      (replace intent : Sequence Unit).run.run world = (.ok (), final) ∧
      (replace intent : Sequence Unit).run.trace world = clearing ++
        [⟨_, .rename intent.temporary intent.target, cleared⟩, ⟨_, .setReadOnly intent.target true, published⟩] ∧
      Throughout (fun world => Holds world.files intent.target content) clearing ∧
      cleared.files.isPresent intent.target = false ∧ Holds cleared.files intent.temporary text ∧
      Holds published.files intent.target text ∧ Holds final.files intent.target text := by
  obtain ⟨cleared, clears, clearing, free⟩ := clear_beside found
  obtain ⟨files, renamed, moved⟩ := free.rename
  obtain ⟨final, changed, protects⟩ := moved.changeMode true
  have renames := run_attempt_of_ok .renaming (Call.run_rename cleared intent.temporary intent.target) renamed
  have ends := run_attempt_of_ok .protecting
    (Call.run_setReadOnly { cleared with files } intent.target true) changed
  refine ⟨_, cleared, { cleared with files }, { cleared with files := final }, ?_, ?_, clearing, free.isPresent,
    free.swap.holds, moved.holds, protects.holds⟩
  · unfold replace
    rw [run_bind_of_ok _ clears, run_bind_of_ok _ renames, ends]
  · unfold replace
    rw [trace_bind_of_ok _ clears, trace_bind_of_ok _ renames, trace_attempt, trace_attempt]
    rfl

end

/-- A publication of which the staged file is not opened: what is at the temporary name is removed. -/
theorem publish_of_create_eq_error {world : World} {intent : Intent} (writes : List Bytes) {fault : FileSystem.Fault}
    (created : world.files.create intent.temporary = .error fault) :
    (publish intent writes : Program Location (Except Fault Unit)).run world =
        (.error ⟨.creating, fault⟩, ((Call.unlink intent.temporary).run world).2) ∧
      (publish intent writes : Program Location (Except Fault Unit)).trace world =
        [⟨_, .create intent.temporary, world⟩, ⟨_, .unlink intent.temporary, world⟩] := by
  have fails := run_stage_of_create_error writes created
  have staging : (stage intent writes : Sequence Unit).run.trace world = [⟨_, .create intent.temporary, world⟩] :=
    (trace_bind_of_error _ (run_create_of_error created)).trans (trace_attempt ..)
  unfold publish
  constructor
  · rw [Program.run_bind, fails]
    rfl
  · rw [Program.trace_bind, staging, fails]
    rfl

/-- A publication of which both parts succeed makes the calls of both. -/
theorem publish_of_stage {world staged final : World} {intent : Intent} {writes : List Bytes}
    (stages : (stage intent writes : Sequence Unit).run.run world = (.ok (), staged))
    (replaces : (replace intent : Sequence Unit).run.run staged = (.ok (), final)) :
    (publish intent writes : Program Location (Except Fault Unit)).run world = (.ok (), final) ∧
      (publish intent writes : Program Location (Except Fault Unit)).trace world =
        (stage intent writes : Sequence Unit).run.trace world ++
          (replace intent : Sequence Unit).run.trace staged := by
  unfold publish
  constructor
  · rw [Program.run_bind, stages, Program.run_bind, replaces]
    rfl
  · rw [Program.trace_bind, stages, Program.trace_bind, replaces, Program.trace_pure, List.append_nil]

/-- A publication at a path that holds a file, with nothing but a file at the temporary name. If the staged file
    cannot be opened, the path holds what it held throughout. If it can, the path does so before every call up to
    the rename but that one: when the rename is made, nothing is at the path, and the text is at the temporary
    name. From then on the path holds the text. -/
theorem interrupted_before_rename (target content : Bytes) (writes : List Bytes) (world : World)
    (sound : Sound world.files) (held : Holds world.files target content)
    (vacant : Vacant world.files (Intent.ofTarget target).temporary) :
    let intent := Intent.ofTarget target
    let publication := (publish intent writes : Program Location (Except Fault Unit))
    (∀ fault, world.files.create intent.temporary = .error fault →
      Throughout (fun world => Holds world.files target content) (publication.trace world) ∧
        Holds (publication.run world).2.files target content) ∧
    ∀ opened, world.files.create intent.temporary = .ok opened →
      ∃ staging cleared published, publication.trace world = staging ++
          [⟨_, .rename intent.temporary intent.target, cleared⟩, ⟨_, .setReadOnly intent.target true, published⟩] ∧
        Throughout (fun world => Holds world.files target content) staging ∧
        cleared.files.isPresent target = false ∧ Holds cleared.files intent.temporary writes.flatten ∧
        Holds published.files target writes.flatten ∧ Holds (publication.run world).2.files target writes.flatten := by
  intro intent publication
  constructor
  · intro fault created
    obtain ⟨ran, calls⟩ := publish_of_create_eq_error writes created
    refine ⟨?_, ?_⟩
    · rw [calls]
      exact .cons rfl held (.cons rfl held .nil)
    · rw [ran, Call.run_unlink]
      rcases settle_cases world (world.files.unlink intent.temporary) with
        ⟨after, removed, settled⟩ | ⟨fault, -, settled⟩
      · rw [settled]
        exact FileSystem.holds_of_unlink_beside sound FileSystem.suffix_unseparated (by decide) held vacant removed
      · rw [settled]
        exact held
  · rintro ⟨file, opened⟩ created
    obtain ⟨directory, name, mode, stagedMode, staged, rfl, found, empty⟩ :=
      FileSystem.create_beside sound FileSystem.suffix_unseparated (by decide) held vacant created
    obtain ⟨after, stages, staging, beside⟩ := stage_beside writes created found empty
    obtain ⟨clearing, cleared, published, final, replaces, calls, throughout, others⟩ := replace_beside beside
    obtain ⟨ran, all⟩ := publish_of_stage stages replaces
    refine ⟨(stage intent writes : Sequence Unit).run.trace world ++ clearing, cleared, published, ?_,
      staging.append throughout, ?_⟩
    · rw [all, calls, List.append_assoc]
    · rw [ran]
      exact others

/-- In a directory with a file of one byte, another byte is published at that file. -/
theorem interrupted_at_replaced_byte :
    let files := (FileSystem.empty [0x77] true).put [[0x6F], [0x77]] (.file Mode.newFile [0x78])
    let intent := Intent.ofTarget [0x6F]
    let publication := (publish intent [[0x79]] : Program Location (Except Fault Unit))
    Sound files ∧ Holds files [0x6F] [0x78] ∧ Vacant files intent.temporary ∧ ∃ staging cleared published,
      publication.trace ⟨files, .unlimited, .unlimited⟩ = staging ++
        [⟨_, .rename intent.temporary [0x6F], cleared⟩, ⟨_, .setReadOnly [0x6F] true, published⟩] ∧
      Throughout (fun world => Holds world.files [0x6F] [0x78]) staging ∧
      cleared.files.isPresent [0x6F] = false ∧ Holds published.files [0x6F] [0x79] := by
  intro files intent publication
  have sound : Sound files := (FileSystem.sound_empty [0x77]).put rfl (by decide)
  have held : Holds files [0x6F] [0x78] := ⟨_, _, rfl⟩
  have vacant : Vacant files intent.temporary := by
    intro location entry found
    cases found
  obtain ⟨staging, cleared, published, calls, throughout, absent, -, new, -⟩ :=
    (interrupted_before_rename [0x6F] [0x78] [[0x79]] ⟨files, .unlimited, .unlimited⟩ sound held vacant).2 _ rfl
  exact ⟨sound, held, vacant, staging, cleared, published, calls, throughout, absent, by simpa using new⟩

/-- That a path holds what it held before every call up to the rename, and before the rename, is not so. -/
theorem not_held_up_to_rename :
    ¬ ∀ (target content : Bytes) (writes : List Bytes) (world : World), Sound world.files →
      Holds world.files target content → Vacant world.files (Intent.ofTarget target).temporary →
      let calls := (publish (.ofTarget target) writes : Program Location (Except Fault Unit)).trace world
      ∀ (index : Nat) (event : Event), calls[index]? = some event →
        (∀ earlier ∈ calls.take index, isRename earlier = false) → Holds event.before.files target content := by
  intro claimed
  have sound : Sound ((FileSystem.empty [0x77] true).put [[0x6F], [0x77]] (.file Mode.newFile [0x78])) :=
    (FileSystem.sound_empty [0x77]).put rfl (by decide)
  obtain ⟨location, mode, found⟩ := claimed [0x6F] [0x78] [[0x79]] ⟨_, .unlimited, .unlimited⟩ sound ⟨_, _, rfl⟩
    (fun _ _ found => by cases found) 6 _ rfl (by decide)
  cases found

end Publish

end ActorSurface
