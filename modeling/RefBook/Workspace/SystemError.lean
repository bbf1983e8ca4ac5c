import RefBook.Text.Basic

/-!
# RefBook.Workspace.SystemError — why an operation on files fails

* `SystemError`: the errors of the system by their numbers; `IoError` adds the two that arise
  before the system is asked and after it has answered.
-/

namespace RefBook

/-- An error of the system. -/
inductive SystemError where
  /-- Nothing has that name. -/
  | noEntry
  /-- The device failed. -/
  | inputOutput
  /-- Not permitted. -/
  | permission
  /-- A path goes on below something that is no directory. -/
  | notDirectory
  /-- A directory where a file is needed. -/
  | isDirectory
  /-- A name is longer than the system allows. -/
  | nameTooLong
  /-- A path leads through more links than the system follows. -/
  | tooManyLinks
deriving DecidableEq, Repr

/-- The number of the error. -/
def SystemError.number : SystemError → Nat
  | noEntry => 2
  | inputOutput => 5
  | permission => 13
  | notDirectory => 20
  | isDirectory => 21
  | nameTooLong => 36
  | tooManyLinks => 40

/-- The wording of the error. -/
def SystemError.describe : SystemError → Text
  | noEntry => "No such file or directory".toList
  | inputOutput => "Input/output error".toList
  | permission => "Permission denied".toList
  | notDirectory => "Not a directory".toList
  | isDirectory => "Is a directory".toList
  | nameTooLong => "File name too long".toList
  | tooManyLinks => "Too many levels of symbolic links".toList

/-- Why reading, writing or starting something failed. -/
inductive IoError where
  /-- The system refused. -/
  | system (e : SystemError)
  /-- The bytes of a file are no text. -/
  | notText
  /-- A path holds the character that ends paths. -/
  | nulInPath
  /-- The name of a program holds that character. -/
  | nulInProgram
  /-- Any other reason, in its own words. -/
  | other (text : Text)
deriving DecidableEq, Repr

/-- The wording of the failure. -/
def IoError.message : IoError → Text
  | system e => e.describe ++ " (os error ".toList ++ decimal e.number ++ [')']
  | notText => "stream did not contain valid UTF-8".toList
  | nulInPath => "file name contained an unexpected NUL byte".toList
  | nulInProgram => "nul byte found in provided data".toList
  | other text => text

end RefBook
