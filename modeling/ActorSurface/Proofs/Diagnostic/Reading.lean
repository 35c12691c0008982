import ActorSurface.Proofs.Diagnostic.Reports
import Mathlib.Data.List.Basic

/-!
Reading diagnostics back. Whoever knows the file can read the diagnostic off its record, whatever the file is called and
whatever the message holds: the digits of the line end at the parenthesis behind them (`number?_eq_some_iff`), of what
may stand behind the place none begins another (`eq_of_opening_front`), and all that is left is the message. The reader takes
the records, and nothing else (`ofRecord?_eq_some_iff`), so that no two diagnostics about a file make the same record
(`records_unambiguous`).
-/

namespace ActorSurface

namespace Diagnostic

/-! ### What a diagnostic tells -/

/-- How grave a diagnostic is. -/
inductive Severity where
  | error
  | warning
  deriving DecidableEq, Repr

def severity : Diagnostic → Severity
  | .error _ => .error
  | .warning _ => .warning

/-- The code of a diagnostic. Warnings have none. -/
def code? : Diagnostic → Option String
  | .error failure => some failure.code
  | .warning _ => none

def line : Diagnostic → Nat
  | .error failure => failure.line
  | .warning finding => finding.line

def message : Diagnostic → String
  | .error failure => failure.message
  | .warning finding => finding.value

/-- The forms that a diagnostic has. -/
inductive Form where
  | warning
  | source
  | internal
  deriving DecidableEq, Repr

namespace Form

/-- What stands behind the place. -/
def opening : Form → String
  | warning => "warning: "
  | source => "error FAC1000: "
  | internal => "error FAC2000: Internal "

/-- The diagnostic of a form, if there is one on the line. What is internal has no line but the first. -/
def make (line : Nat) (body : String) : Form → Option Diagnostic
  | warning => some (.warning ⟨line, body⟩)
  | source => some (.error (.source line body))
  | internal => if line = 1 then some (.error (.internal body)) else none

end Form

theorem exists_make (diagnostic : Diagnostic) :
    ∃ (form : Form) (line : Nat) (body : String), form.make line body = some diagnostic := by
  cases diagnostic with
  | warning finding => exact ⟨.warning, finding.line, finding.value, rfl⟩
  | error failure =>
    cases failure with
    | source line message => exact ⟨.source, line, message, rfl⟩
    | internal details => exact ⟨.internal, 1, details, rfl⟩

/-- The text of a diagnostic is its place, what opens its form, and the rest of the form. -/
theorem text_of_make {form : Form} {line : Nat} {body : String} {diagnostic : Diagnostic}
    (made : form.make line body = some diagnostic) (file : String) :
    diagnostic.text file = place file line ++ form.opening ++ body := by
  have source : "error FAC1000: " = "error " ++ "FAC1000" ++ ": " := by decide
  have internal : "error FAC2000: Internal " = "error " ++ "FAC2000" ++ ": " ++ "Internal " := by decide
  cases form with
  | warning =>
    cases made
    rfl
  | source =>
    cases made
    simp only [text, Failure.line, Failure.code, Failure.message, Form.opening, source, String.append_assoc]
  | internal =>
    rw [Form.make] at made
    split_ifs at made with first
    cases made
    simp only [text, Failure.line, Failure.code, Failure.message, Form.opening, internal, first, String.append_assoc]

/-- Failures with the same code, line and text are the same. -/
theorem failure_eq {one other : Failure} (code : one.code = other.code) (line : one.line = other.line)
    (message : one.message = other.message) : one = other := by
  have different : "FAC1000" ≠ "FAC2000" := by decide
  cases one with
  | source place text =>
    cases other with
    | source => exact congrArg₂ Failure.source line message
    | internal => exact absurd code different
  | internal details =>
    cases other with
    | source => exact absurd code.symm different
    | internal => exact congrArg Failure.internal ((String.append_right_inj _).mp message)

/-- Diagnostics are the same where they tell the same. -/
theorem eq_iff {one other : Diagnostic} :
    one = other ↔ one.severity = other.severity ∧ one.code? = other.code? ∧ one.line = other.line ∧
      one.message = other.message := by
  constructor
  · rintro rfl
    exact ⟨rfl, rfl, rfl, rfl⟩
  · rintro ⟨severity, code, line, message⟩
    cases one with
    | warning finding =>
      cases other with
      | warning twin =>
        obtain ⟨place, text⟩ := finding
        cases line
        cases message
        rfl
      | error twin => cases severity
    | error failure =>
      cases other with
      | warning twin => cases severity
      | error twin =>
        refine congrArg Diagnostic.error (failure_eq ?_ line message)
        exact Option.some.inj code

/-! ### The parts of a record -/

/-- The number with which a text begins, and what is behind its digits. It is told by just the digits that are written
    for it, so that it has no zeros in front. -/
def number? (text : List Char) : Option (Nat × List Char) :=
  let digits := text.takeWhile Char.isDigit
  let number := Nat.ofDigitChars 10 digits 0
  if digits = Nat.toDigits 10 number then some (number, text.dropWhile Char.isDigit) else none

/-- A number is read up to what is no digit. -/
theorem number?_eq_some_iff {text behind : List Char} {number : Nat} :
    number? text = some (number, behind) ↔
      text = Nat.toDigits 10 number ++ behind ∧ ∀ char ∈ behind.head?, char.isDigit = false := by
  constructor
  · intro found
    unfold number? at found
    dsimp only at found
    split_ifs at found with canonical
    cases found
    refine ⟨?_, ?_⟩
    · rw [← canonical, List.takeWhile_append_dropWhile]
    · intro char heads
      have stops := List.head?_dropWhile_not Char.isDigit text
      rw [Option.mem_def.mp heads] at stops
      exact stops
  · rintro ⟨rfl, stops⟩
    have digits : ∀ char ∈ Nat.toDigits 10 number, char.isDigit = true :=
      fun char listed => Nat.isDigit_of_mem_toDigits (by decide) (by decide) listed
    have ended : behind.takeWhile Char.isDigit = [] ∧ behind.dropWhile Char.isDigit = behind := by
      cases behind with
      | nil => exact ⟨rfl, rfl⟩
      | cons char behind =>
        have other : char.isDigit = false := stops char rfl
        simp [other]
    unfold number?
    simp only [List.takeWhile_append_of_pos digits, List.dropWhile_append_of_pos digits, ended, List.append_nil,
      Nat.ofDigitChars_ten_toDigits, if_true]

namespace Form

/-- All forms. -/
def all : List Form :=
  [warning, source, internal]

theorem mem_all (form : Form) : form ∈ all := by
  cases form <;> decide

/-- No form opens with what opens another. -/
theorem eq_of_opening_front {one other : Form} (begins : one.opening.toList <+: other.opening.toList) : one = other := by
  have apart : ∀ one ∈ all, ∀ other ∈ all, one.opening.toList <+: other.opening.toList → one = other := by decide
  exact apart one (mem_all one) other (mem_all other) begins

/-- The form that a text opens. -/
def of? (text : List Char) : Option Form :=
  all.find? fun form => form.opening.toList.isPrefixOf text

theorem of?_append (form : Form) (body : List Char) : of? (form.opening.toList ++ body) = some form := by
  have begins : form.opening.toList <+: form.opening.toList ++ body := List.prefix_append _ _
  have found : (of? (form.opening.toList ++ body)).isSome = true :=
    List.find?_isSome.mpr ⟨form, mem_all form, List.isPrefixOf_iff_prefix.mpr begins⟩
  obtain ⟨other, found⟩ := Option.isSome_iff_exists.mp found
  have beginsOther : other.opening.toList <+: form.opening.toList ++ body := by
    have tested := List.find?_some found
    exact List.isPrefixOf_iff_prefix.mp tested
  rw [found]
  rcases List.prefix_or_prefix_of_prefix begins beginsOther with inside | inside
  · rw [eq_of_opening_front inside]
  · rw [eq_of_opening_front inside]

end Form

/-! ### Readers -/

/-- What a text tells on some line. -/
def ofBody? (line : Nat) (text : List Char) : Option Diagnostic := do
  let form ← Form.of? text
  let body ← form.opening.toList.isPrefixOf? text
  form.make line (String.ofList body)

theorem ofBody?_eq_some_iff {line : Nat} {text : List Char} {diagnostic : Diagnostic} :
    ofBody? line text = some diagnostic ↔
      ∃ (form : Form) (body : String), form.make line body = some diagnostic ∧
        text = form.opening.toList ++ body.toList := by
  simp only [ofBody?, Option.bind_eq_bind, Option.bind_eq_some_iff,
    List.isPrefixOf?_eq_some_iff_append_eq]
  constructor
  · rintro ⟨form, -, body, rfl, made⟩
    exact ⟨form, String.ofList body, made, by rw [String.toList_ofList]⟩
  · rintro ⟨form, body, made, rfl⟩
    exact ⟨form, form.of?_append body.toList, body.toList, rfl, by rwa [String.ofList_toList]⟩

/-- The diagnostic about a file that has a text. -/
def ofText? (file text : String) : Option Diagnostic := do
  let rest ← (file ++ "(").toList.isPrefixOf? text.toList
  let (line, rest) ← number? rest
  let rest ← "): ".toList.isPrefixOf? rest
  ofBody? line rest

/-- The text of a diagnostic is read part by part. -/
theorem ofText?_eq_some_iff {file text : String} {diagnostic : Diagnostic} :
    ofText? file text = some diagnostic ↔ text = diagnostic.text file := by
  have closing : "): ".toList = [')', ':', ' '] := by decide
  simp only [ofText?, Option.bind_eq_bind, Option.bind_eq_some_iff, Prod.exists,
    List.isPrefixOf?_eq_some_iff_append_eq, number?_eq_some_iff, ofBody?_eq_some_iff]
  constructor
  · rintro ⟨rest, whole, line, rest, ⟨rfl, -⟩, rest, rfl, form, body, made, rfl⟩
    rw [text_of_make made, ← String.toList_inj, ← whole]
    simp [place]
  · rintro rfl
    obtain ⟨form, line, body, made⟩ := exists_make diagnostic
    refine ⟨_, ?_, line, _, ⟨rfl, ?_⟩, form.opening.toList ++ body.toList, rfl, form, body, made, rfl⟩
    · rw [text_of_make made]
      simp [place]
    · intro char heads
      rw [closing] at heads
      cases heads
      decide

-- Neither the name of the file nor the message is taken for a part of the record.
example : ofText? "a(1): error FAC1000: b" "a(1): error FAC1000: b(20): warning: (3): error FAC2000: Internal " =
    some (.warning ⟨20, "(3): error FAC2000: Internal "⟩) := by
  decide +kernel

/-- The diagnostic about a file that makes a record. -/
def ofRecord? (file : String) (octets : Bytes) : Option Diagnostic := do
  let text ← Utf8.decode? octets
  if text.toList.getLast? = some '\n' then ofText? file (String.ofList text.toList.dropLast) else none

/-- The reader takes the records, each for its diagnostic, and nothing else. -/
theorem ofRecord?_eq_some_iff {file : String} {octets : Bytes} {diagnostic : Diagnostic} :
    ofRecord? file octets = some diagnostic ↔ octets = diagnostic.record file := by
  have ending : "\n".toList = ['\n'] := by decide
  simp only [ofRecord?, Option.bind_eq_bind, Option.bind_eq_some_iff, Utf8.decode?_eq_some_iff]
  constructor
  · rintro ⟨text, rfl, found⟩
    split_ifs at found with ends
    rw [ofText?_eq_some_iff] at found
    have whole : text = diagnostic.text file ++ "\n" := by
      rw [← String.toList_inj, String.toList_append, ← found, String.toList_ofList, ending]
      exact (List.dropLast_append_getLast? '\n' ends).symm
    rw [whole]
    rfl
  · rintro rfl
    refine ⟨diagnostic.text file ++ "\n", rfl, ?_⟩
    have chars : (diagnostic.text file ++ "\n").toList = (diagnostic.text file).toList ++ ['\n'] := by
      rw [String.toList_append, ending]
    rw [chars, List.getLast?_concat, if_pos rfl, List.dropLast_concat, ofText?_eq_some_iff, String.ofList_toList]

/-- What a sink that accepts everything holds of a report about a file tells the severity, the code, the line and the
    message of the diagnostic and is told by them, whatever the name of the file and the message. A reader who knows the
    file recovers the diagnostic from it, and refuses everything that no diagnostic makes. -/
theorem records_unambiguous (file : String) (one other : Diagnostic) :
    let emitted := fun diagnostic : Diagnostic => (Sink.unlimited.report file diagnostic).held
    (emitted one = emitted other ↔ one.severity = other.severity ∧ one.code? = other.code? ∧ one.line = other.line ∧
      one.message = other.message) ∧
    ∀ octets, ofRecord? file octets = some one ↔ octets = emitted one := by
  intro emitted
  have written : ∀ diagnostic, emitted diagnostic = diagnostic.record file := by
    intro diagnostic
    exact Sink.held_writeLine_unlimited (diagnostic.text file)
  refine ⟨?_, ?_⟩
  · rw [← eq_iff]
    constructor
    · intro same
      rw [written, written, ← ofRecord?_eq_some_iff, ofRecord?_eq_some_iff.mpr rfl] at same
      exact Option.some.inj same
    · rintro rfl
      rfl
  · intro octets
    rw [written]
    exact ofRecord?_eq_some_iff

end Diagnostic

end ActorSurface
