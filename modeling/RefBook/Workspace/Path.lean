import RefBook.Text.Basic

/-!
# RefBook.Workspace.Path — paths

* `joinPath` puts a path below a directory; a path from the root stays as it is.
* `pathNames`: the names that a path goes through, without the empty ones between slashes.
-/

namespace RefBook

/-- Whether the path starts at the root. -/
def isAbsolute (path : Text) : Bool :=
  path.head? == some '/'

/-- Whether the path ends in a slash. -/
def endsInSlash (path : Text) : Bool :=
  path.getLast? == some '/'

/-- The path below the directory.  One slash comes between unless the directory has it or is the
empty path; nothing is normalised. -/
def joinPath (dir path : Text) : Text :=
  if isAbsolute path then path
  else if dir.isEmpty || endsInSlash dir then dir ++ path
  else dir ++ '/' :: path

/-- The names that a path goes through. -/
def pathNames (path : Text) : List Text :=
  (path.splitOn '/').filter fun name => !name.isEmpty

end RefBook
