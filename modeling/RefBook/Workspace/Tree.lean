import RefBook.Text.Utf8
import RefBook.Workspace.Path
import RefBook.Workspace.SystemError

/-!
# RefBook.Workspace.Tree — a tree of files

* `Location`: a place in the tree, by the names from the root down to it.
* `Tree`: what stands at each location: files, directories, symbolic links, special files; which
  locations are names of one file; and what the system refuses to do where.
* `Tree.locate` follows a path from a directory to a location.  Every name but the last must lead to
  a directory, and links are followed, up to a bound; for `Tree.enter` the last name must lead to a
  directory too.  `Tree.locateEntry` does not follow a link at the end.
* `Tree.readFile`, `Tree.writeFile`, `Tree.removeFile`, `Tree.isFile`: the operations on the file of
  a path.  Each fails without effect or takes full effect.
-/

namespace RefBook

open Utf8 (Bytes)

/-- A place in the tree: the names from the root down to it. -/
abbrev Location := List Text

/-- What stands at a place. -/
inductive Node where
  /-- A file with its content. -/
  | file (content : Bytes)
  /-- A directory. -/
  | directory
deriving DecidableEq, Repr

/-- The node after its content was written over, if it has one. -/
def Node.rewritten (content : Bytes) : Node → Node
  | file _ => file content
  | directory => directory

/-- What the system is asked to do at a place. -/
inductive Access where
  /-- To look up a name in the directory there. -/
  | search
  /-- To read the file there. -/
  | read
  /-- To write over the file there. -/
  | write
  /-- To make a file there. -/
  | create
  /-- To remove what stands there. -/
  | remove
  /-- To run the file there. -/
  | run
deriving DecidableEq, Repr

/-- Puts a node at a location. -/
def putNode (l : Location) (node : Node) : List (Location × Node) → List (Location × Node)
  | [] => [(l, node)]
  | (k, n) :: nodes => if k = l then (k, node) :: nodes else (k, n) :: putNode l node nodes

/-- What stands at each location.  A symbolic link hides any node of its place. -/
structure Tree where
  /-- The files and directories below the root. -/
  nodes : List (Location × Node) := []
  /-- The symbolic links, each with the path that it stands for. -/
  links : List (Location × Text) := []
  /-- The files that are special, like a terminal: what is written to them is gone, and reading them
  gives what it gave before. -/
  special : List Location := []
  /-- The files with several names: places with one number are names of one file. -/
  shared : List (Location × Nat) := []
  /-- What the system refuses to do where, for want of permission or for any other reason. -/
  refusals : List ((Access × Location) × IoError) := []
deriving DecidableEq, Repr

namespace Tree

/-- The path that a symbolic link at a location stands for.  The root is none. -/
def link? (t : Tree) (l : Location) : Option Text :=
  if l = [] then none else t.links.lookup l

/-- The file or the directory at a location. -/
def get? (t : Tree) (l : Location) : Option Node :=
  if l = [] then some .directory
  else if (t.link? l).isSome then none
  else t.nodes.lookup l

/-- Whether two locations are names of one file. -/
def sameFile (t : Tree) (k l : Location) : Bool :=
  k == l || match t.shared.lookup k with
    | some n => t.shared.lookup l == some n
    | none => false

/-- The tree with a node put at a location, in place of what stood there. -/
def put (t : Tree) (l : Location) (node : Node) : Tree :=
  { t with
    nodes := putNode l node t.nodes
    special := t.special.filter fun k => k ≠ l
    shared := t.shared.filter fun n => n.1 ≠ l }

/-- The tree with the file at a location written over, under all its names. -/
def rewrite (t : Tree) (l : Location) (content : Bytes) : Tree :=
  { t with nodes := t.nodes.map fun (k, n) =>
      (k, if t.sameFile l k then n.rewritten content else n) }

/-- The tree without what stands at a location. -/
def erase (t : Tree) (l : Location) : Tree :=
  { t with
    nodes := t.nodes.filter fun n => n.1 ≠ l
    links := t.links.filter fun n => n.1 ≠ l
    special := t.special.filter fun k => k ≠ l
    shared := t.shared.filter fun n => n.1 ≠ l }

/-- Asks the system for leave. -/
def ask (t : Tree) (access : Access) (l : Location) : Except IoError Unit :=
  match t.refusals.lookup (access, l) with
  | none => .ok ()
  | some e => .error e

/-! ## Following a path -/

/-- The most bytes of a name. -/
def nameMax : Nat := 255

/-- The most bytes of a path with its end mark. -/
def pathMax : Nat := 4096

/-- The most links that are followed on the way along a path. -/
def linkMax : Nat := 40

/-- The location that a name leads to from a directory, whether anything stands there or not. -/
def child (dir : Location) (name : Text) : Except IoError Location :=
  if name = ['.'] then .ok dir
  else if name = ['.', '.'] then .ok dir.dropLast
  else if nameMax < byteLength name then .error (.system .nameTooLong)
  else .ok (dir ++ [name])

/-- Where a path starts that is followed from a directory. -/
def pathStart (dir : Location) (path : Text) : Location :=
  if isAbsolute path then [] else dir

/-- The names that a link stands for.  A slash at its end asks for a directory. -/
def linkNames (target : Text) : List Text :=
  if endsInSlash target then pathNames target ++ [['.']] else pathNames target

/-- Follows names, each from the directory that those before it lead to.  Where a name is that of a
link, `onLink` takes over, with the directory of the link, its path and the names that are left. -/
def walk (t : Tree) (onLink : Location → Text → List Text → Except IoError Location) :
    Location → List Text → Except IoError Location
  | dir, [] => .ok dir
  | dir, name :: more =>
    match t.get? dir with
    | none => .error (.system .noEntry)
    | some (.file _) => .error (.system .notDirectory)
    | some .directory => do
      t.ask .search dir
      let l ← child dir name
      match t.link? l with
      | some target => onLink l.dropLast target more
      | none => t.walk onLink l more

/-- Follows names, and up to so many links. -/
def follow (t : Tree) : Nat → Location → List Text → Except IoError Location
  | 0 => t.walk fun _ _ _ => .error (.system .tooManyLinks)
  | links + 1 => t.walk fun dir target more =>
    if target.isEmpty then .error (.system .noEntry)
    else t.follow links (pathStart dir target) (linkNames target ++ more)

/-- Follows names from where a path starts.  Some paths are refused as a whole. -/
def followFrom (t : Tree) (dir : Location) (path : Text) (names : List Text) :
    Except IoError Location :=
  if '\x00' ∈ path then .error .nulInPath
  else if path.isEmpty then .error (.system .noEntry)
  else if pathMax ≤ byteLength path then .error (.system .nameTooLong)
  else t.follow linkMax (pathStart dir path) names

/-- The location of a path. -/
def locate (t : Tree) (dir : Location) (path : Text) : Except IoError Location :=
  t.followFrom dir path (pathNames path)

/-- The location of the directory that the last name of a path is looked up in. -/
def locateParent (t : Tree) (dir : Location) (path : Text) : Except IoError Location :=
  t.followFrom dir path ((pathNames path).dropLast ++ [['.']])

/-- The location of what a path names itself: a link at its end is not followed. -/
def locateEntry (t : Tree) (dir : Location) (path : Text) : Except IoError Location := do
  child (← t.locateParent dir path) ((pathNames path).getLastD ['.'])

/-- The location of a directory, to look up names there. -/
def enter (t : Tree) (dir : Location) (path : Text) : Except IoError Location :=
  t.followFrom dir path (pathNames path ++ [['.']])

/-! ## Files -/

/-- Whether the path names a file that is not special. -/
def isFile (t : Tree) (dir : Location) (path : Text) : Bool :=
  match t.locate dir path with
  | .ok l =>
    match t.get? l with
    | some (.file _) => !endsInSlash path && !t.special.contains l
    | _ => false
  | .error _ => false

/-- The content of a file. -/
def readFile (t : Tree) (dir : Location) (path : Text) : Except IoError Bytes := do
  let l ← t.locate dir path
  match t.get? l with
  | none => .error (.system .noEntry)
  | some .directory => do
    t.ask .read l
    .error (.system .isDirectory)
  | some (.file content) =>
    if endsInSlash path then .error (.system .notDirectory)
    else do
      t.ask .read l
      .ok content

/-- The content of a file as a text. -/
def readText (t : Tree) (dir : Location) (path : Text) : Except IoError Text := do
  match Utf8.decode? (← t.readFile dir path) with
  | some s => .ok s
  | none => .error .notText

/-- The tree with content written at a location: over that of the file there, or to a new file. -/
def writeAt (t : Tree) (l : Location) (content : Bytes) : Except IoError Tree := do
  match t.get? l with
  | some .directory => .error (.system .isDirectory)
  | some (.file _) => do
    t.ask .write l
    .ok (if t.special.contains l then t else t.rewrite l content)
  | none => do
    t.ask .create l
    .ok (t.put l (.file content))

/-- The tree with a file written: an old content is replaced.  A slash at the end asks for a
directory, which is refused before the last name is looked up. -/
def writeFile (t : Tree) (dir : Location) (path : Text) (content : Bytes) :
    Except IoError Tree := do
  if endsInSlash path then do
    let _ ← t.locateParent dir path
    .error (.system .isDirectory)
  else
    t.writeAt (← t.locate dir path) content

/-- The tree without the file or the link that the path names. -/
def removeFile (t : Tree) (dir : Location) (path : Text) : Except IoError Tree := do
  let l ← t.locateEntry dir path
  if t.link? l = none ∧ t.get? l = none then .error (.system .noEntry)
  else if endsInSlash path then
    .error (.system (if t.get? l = some .directory then .isDirectory else .notDirectory))
  else do
    t.ask .remove l
    if t.get? l = some .directory then .error (.system .isDirectory)
    else .ok (t.erase l)

end Tree

end RefBook
