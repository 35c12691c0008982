/-!
What a call on files can answer instead of doing its work, with the wording of each answer.
-/

namespace ActorSurface

namespace FileSystem

/-- The errors that the system answers. -/
inductive SystemError where
  | notFound
  | accessDenied
  | busy
  | alreadyExists
  | notDirectory
  | isDirectory
  | nameTooLong
  | linkLoop
  deriving DecidableEq, Repr

/-- The number of a system error. -/
def SystemError.number : SystemError → Nat
  | .notFound => 2
  | .accessDenied => 13
  | .busy => 16
  | .alreadyExists => 17
  | .notDirectory => 20
  | .isDirectory => 21
  | .nameTooLong => 36
  | .linkLoop => 40

/-- The system errors that are known by their numbers. -/
def SystemError.all : List SystemError :=
  [.notFound, .accessDenied, .busy, .alreadyExists, .notDirectory, .isDirectory, .nameTooLong, .linkLoop]

/-- The system's description of an error. -/
def SystemError.description : SystemError → String
  | .notFound => "No such file or directory"
  | .accessDenied => "Permission denied"
  | .busy => "Device or resource busy"
  | .alreadyExists => "File exists"
  | .notDirectory => "Not a directory"
  | .isDirectory => "Is a directory"
  | .nameTooLong => "File name too long"
  | .linkLoop => "Too many levels of symbolic links"

/-- Why a call on files fails: by an error of the system, because the path holds a NUL, because the content
    is not UTF-8, or for a reason of the host that has no place here and is only told. -/
inductive Fault where
  | system (error : SystemError)
  | nulInPath
  | notText
  | host (description : String)
  deriving DecidableEq, Repr

/-- A description with the number that the system gives an error. -/
def numbered (number : Nat) (description : String) : String :=
  description ++ " (os error " ++ toString number ++ ")"

/-- The fault that an error number of the system means, which comes with a description. -/
def Fault.ofNumber (number : Nat) (description : String) : Fault :=
  match SystemError.all.find? fun error => error.number == number with
  | some error => .system error
  | none => .host (numbered number description)

/-- The wording of a fault. -/
def Fault.message : Fault → String
  | .system error => numbered error.number error.description
  | .nulInPath => "file name contained an unexpected NUL byte"
  | .notText => "stream did not contain valid UTF-8"
  | .host description => description

/-- What a call on files answers. -/
abbrev Answer := Except Fault

end FileSystem

end ActorSurface
