import RefBook.Json.Fault
import RefBook.Page.Prose
import RefBook.Workspace.SystemError

/-!
# RefBook.Build.Failure — how a build can fail

* `Failure`: one constructor for each stage that can fail; `Failure.message` is what the user is
  told, and `Failure.exitStatus` the status that the process ends with.
-/

namespace RefBook

/-- Why no reference was written. -/
inductive Failure where
  /-- The project has no descriptor. -/
  | noDescriptor (path : Text)
  /-- The compiler could not be started. -/
  | notStarted (program : Text) (cause : IoError)
  /-- The compiler did not succeed; without a status it was ended by a signal. -/
  | compilerFailed (program : Text) (status : Option Int) (stderr : Text)
  /-- What the compiler wrote could not be read or removed. -/
  | artifact (path : Text) (cause : IoError)
  /-- The description of the modules is malformed. -/
  | malformed (fault : Json.Fault)
  /-- A directive names what its module does not declare. -/
  | unresolved (complaint : Unresolved)
  /-- The description holds no modules. -/
  | noModules
  /-- A file could not be read or written. -/
  | io (cause : IoError)
deriving DecidableEq, Repr

/-- What the user is told. -/
def Failure.message : Failure → Text
  | noDescriptor path =>
    "I couldn't find ".toList ++ path
      ++ ". Make sure you are in the correct directory.".toList
  | notStarted program cause =>
    "failed to run ".toList ++ program ++ ": ".toList ++ cause.message
  | compilerFailed program status stderr =>
    let withStatus := match status with
      | some n =>
        " with exit code ".toList ++ (if n < 0 then ['-'] else []) ++ decimal n.natAbs
      | none => []
    program ++ " failed".toList ++ withStatus
      ++ if stderr.isEmpty then [] else ": ".toList ++ stderr
  | artifact path cause =>
    "cannot access docs output ".toList ++ path ++ ": ".toList ++ cause.message
  | malformed fault => "malformed docs JSON: ".toList ++ fault.message
  | unresolved complaint => complaint.message
  | noModules => "compiler output contains no modules".toList
  | io cause => "I/O error: ".toList ++ cause.message

/-- The status that the process ends with.  A missing descriptor is told, but is no failure of the
process. -/
def Failure.exitStatus : Failure → Nat
  | noDescriptor _ => 0
  | noModules => 1
  | artifact .. | malformed _ => 2
  | io _ => 3
  | notStarted .. | compilerFailed .. => 4
  | unresolved _ => 5

end RefBook
