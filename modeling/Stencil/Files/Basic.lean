import Stencil.FaultChain

/-!
# Files — texts under paths

Whatever reads files is a function of a snapshot: what each path holds, or why it cannot
be read as text.
-/

namespace Stencil

/-- Why a path cannot be read as text. -/
inductive FileFault where
  | notFound
  | isDirectory
  | notDirectory
  | nameTooLong
  | invalidName
  | notText
  /-- Anything else, in the words of the system. -/
  | system (problem : FileProblem) (message : String)
deriving Repr, DecidableEq

/-- The text of a file fault. -/
def FileFault.message : FileFault → String
  | .notFound => "No such file or directory (os error 2)"
  | .isDirectory => "Is a directory (os error 21)"
  | .notDirectory => "Not a directory (os error 20)"
  | .nameTooLong => "File name too long (os error 36)"
  | .invalidName => "file name contained an unexpected NUL byte"
  | .notText => "stream did not contain valid UTF-8"
  | .system _ message => message

/-- What kind of problem a file fault is. -/
def FileFault.problem : FileFault → FileProblem
  | .notFound => .notFound
  | .notText => .invalidData
  | .system problem _ => problem
  | _ => .other

/-- A file fault as the origin of a chain. -/
def FileFault.origin (fault : FileFault) : Origin :=
  .file fault.problem fault.message

/-- What the paths hold. -/
abbrev Files := String → Except FileFault String

/-- Reads a file; a fault gets a note that says what was wanted of it. -/
def Files.readNoting (files : Files) (purpose path : String) : Except FaultChain String :=
  (files path).mapError fun fault =>
    (FaultChain.of fault.origin).wrap (.note (purpose ++ path))

end Stencil
