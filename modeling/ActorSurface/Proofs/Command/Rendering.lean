import ActorSurface.Proofs.Command.Arguments
import ActorSurface.Proofs.Engine.Mapping
import ActorSurface.Proofs.Text.IllFormed

/-!
Paths and arguments as they are shown. None of them need be well-formed text, and still each separator keeps its place:
normalizing a path is the same as exchanging its bytes first (`normalizePath_eq`), and the line that shows the arguments
is their bytes joined by spaces, shown as a whole (`echo_eq`). The command writes that line, and nothing else, on its
standard output (`rendering_keeps_separators`).
-/

namespace ActorSurface

open FileSystem (Location)

namespace Utf8

/-- The byte of a backslash. -/
def backslash : UInt8 := 0x5C

/-- The byte of a slash. -/
def slash : UInt8 := 0x2F

/-- The byte of a space. -/
def space : UInt8 := 0x20

theorem ofAscii_backslash : ofAscii backslash = '\\' := by decide

theorem ofAscii_slash : ofAscii slash = '/' := by decide

theorem ofAscii_space : ofAscii space = ' ' := by decide

end Utf8

open Utf8 (backslash slash space)

/-! ### Paths -/

/-- A path is normalized by its bytes. -/
theorem normalizePath_eq (path : Bytes) : normalizePath path = Utf8.lossy (substitute backslash slash path) := by
  rw [Utf8.lossy_substitute (by decide) (by decide), Utf8.ofAscii_backslash, Utf8.ofAscii_slash]
  rfl

/-- Well-formed text without backslashes is kept. -/
theorem normalizePath_encode {text : String} (plain : '\\' ∉ text.toList) : normalizePath (Utf8.encode text) = text := by
  have absent : backslash ∉ Utf8.encode text := by
    rw [Utf8.mem_encode (by decide), Utf8.ofAscii_backslash]
    exact plain
  rw [normalizePath_eq, substitute_of_not_mem absent, Utf8.lossy_encode]

/-- The paths that are kept byte by byte are well-formed text without backslashes. -/
theorem encode_normalizePath_eq_iff (path : Bytes) :
    Utf8.encode (normalizePath path) = path ↔ (∃ text, path = Utf8.encode text) ∧ backslash ∉ path := by
  constructor
  · intro kept
    refine ⟨⟨_, kept.symm⟩, ?_⟩
    rw [← kept, Utf8.mem_encode (by decide), Utf8.ofAscii_backslash]
    exact backslash_not_mem_normalizePath path
  · rintro ⟨⟨text, rfl⟩, absent⟩
    rw [Utf8.mem_encode (by decide), Utf8.ofAscii_backslash] at absent
    rw [normalizePath_encode absent]

/-! ### Arguments -/

/-- Arguments are shown by their bytes, joined by spaces. -/
theorem Invocation.echo_eq (arguments : List Bytes) :
    echo arguments = "actorcompiler " ++ Utf8.lossy ([space].intercalate arguments) := by
  have between : String.singleton (Utf8.ofAscii space) = " " := by
    rw [Utf8.ofAscii_space]
    rfl
  have name : programName ++ " " = "actorcompiler " := by decide
  rw [Utf8.lossy_intercalate (by decide), between, ← name]
  rfl

namespace Command

/-- Behind two paths, the command shows its arguments on one line of its standard output and writes nothing else
    there. -/
theorem output_of_paths (parser : Parser) (input output : Bytes) (further : List Bytes) (files : FileSystem) :
    ((runWith parser (input :: output :: further) : Program Location ExitStatus).run
      ⟨files, .unlimited, .unlimited⟩).2.output.held =
        Utf8.encode (Invocation.echo (input :: output :: further) ++ "\n") := by
  have accepting : (shown input output further ⟨files, .unlimited, .unlimited⟩).errors.room = none := rfl
  obtain ⟨request, warnings, failure, after, compiles, -, kept, -⟩ :=
    Compile.exists_course Engine.surface Publish.inOneWrite (invoked parser input output further) accepting
  rw [run_paths parser input output further _ compiles, kept]
  exact Sink.held_writeLine_unlimited _

/-- Whatever bytes a path has, normalizing it comes to showing it with a slash for each byte that is a backslash; no
    backslash is left, just the paths that are well-formed text without one are kept, and normalizing again changes
    nothing. And whatever bytes the arguments have, the command shows them as their bytes would be, joined by spaces: no
    ill-formed part of one reaches over the space into the next. What is shown has one replacement character for each
    maximal ill-formed part. -/
theorem rendering_keeps_separators (parser : Parser) (path input output : Bytes) (further : List Bytes)
    (files : FileSystem) :
    let shown := normalizePath path
    let (_, after) := (runWith parser (input :: output :: further) : Program Location ExitStatus).run
      ⟨files, .unlimited, .unlimited⟩
    shown = Utf8.lossy (substitute backslash slash path) ∧
      '\\' ∉ shown.toList ∧
      (Utf8.encode shown = path ↔ (∃ text, path = Utf8.encode text) ∧ backslash ∉ path) ∧
      normalizePath (Utf8.encode shown) = shown ∧
      after.output.held = Utf8.encode
        ("actorcompiler " ++ Utf8.lossy ([space].intercalate (input :: output :: further)) ++ "\n") ∧
      ∀ octets text, Utf8.lossy octets = text ↔ Utf8.Shows octets text.toList := by
  intro shown
  have unslashed := backslash_not_mem_normalizePath path
  have written := output_of_paths parser input output further files
  rw [Invocation.echo_eq] at written
  refine ⟨normalizePath_eq path, unslashed, encode_normalizePath_eq_iff path, normalizePath_encode unslashed, written, ?_⟩
  intro octets text
  exact Utf8.lossy_eq_iff

end Command

end ActorSurface
