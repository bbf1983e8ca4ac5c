import RefBook.Build.Failure
import RefBook.CommandLine.Settings
import RefBook.Record.Reader
import RefBook.Text.Blank
import RefBook.Workspace.Tree

/-!
# RefBook.Build.Run — from a project to its reference

* `Program`: a compiler by what it does; `Site`: the tree a build works on, the directory it is
  started in, the compilers that can be found, and what the compiler was started with.
* `render`: the reference of a description, without touching any file.
* `load`: the description, from a file or from the compiler.
* `generate` loads, renders and writes.  The output is touched only when all else has succeeded.
-/

namespace RefBook

open Utf8 (Bytes)

/-- A compiler by what it does. -/
structure Program where
  /-- The name it is found by where programs are kept. -/
  name : Text
  /-- What it writes to the file it is told, if anything; it does so before it ends. -/
  docs : Option Bytes
  /-- What it says on standard error. -/
  stderr : Bytes
  /-- The status it ends with, or `none` if a signal ends it. -/
  status : Option UInt8
deriving DecidableEq, Repr

/-- Where a build takes place. -/
structure Site where
  /-- The tree of files. -/
  tree : Tree
  /-- The directory the build is started in. -/
  dir : Location
  /-- The compiler that can be found by its name. -/
  compiler : Option Program
  /-- The files of the tree that can be run, by what they do. -/
  executables : List (Location × Program) := []
  /-- The arguments that the compiler was started with, once it was. -/
  started : Option (List Text) := none

/-! ## The files of a project -/

/-- The file that makes a directory a project. -/
def Settings.descriptorPath (s : Settings) : Text :=
  joinPath s.project "elm-package.json".toList

/-- The name of the file that the compiler writes to. -/
def artifactName : Text := ".elm-docs".toList

/-- The file that the compiler writes to. -/
def Settings.artifactPath (s : Settings) : Text :=
  joinPath s.project artifactName

/-- The file that the reference is written to. -/
def Settings.outputPath (s : Settings) : Text :=
  joinPath s.project s.output

/-! ## Rendering -/

/-- The reference of a description. -/
def render (options : RenderOptions) (json : Text) : Except Failure Text :=
  match readModules json with
  | .error fault => .error (.malformed fault)
  | .ok [] => .error .noModules
  | .ok (m :: ms) =>
    match document options (m :: ms) with
    | .ok t => .ok t
    | .error complaint => .error (.unresolved complaint)

/-! ## Running the compiler -/

/-- The arguments that the compiler is started with. -/
def compilerArgs : List Text :=
  ["--yes".toList, "--docs=".toList ++ artifactName]

/-- The program in the file of a path. -/
def Site.executable (site : Site) (dir : Location) (path : Text) : Except IoError Program := do
  let l ← site.tree.locate dir path
  match site.tree.get? l with
  | none => .error (.system .noEntry)
  | some .directory => .error (.system .permission)
  | some (.file _) =>
    if endsInSlash path then .error (.system .notDirectory)
    else do
      site.tree.ask .run l
      match site.executables.lookup l with
      | some p => .ok p
      | none => .error (.system .permission)

/-- The program of a name where programs are kept: `.` and `..` are found there too, as
directories. -/
def Site.installed (site : Site) (name : Text) : Except IoError Program :=
  if name.isEmpty then .error (.system .noEntry)
  else if name = ['.'] ∨ name = ['.', '.'] then .error (.system .permission)
  else if Tree.nameMax < byteLength name then .error (.system .nameTooLong)
  else
    match site.compiler with
    | some p => if p.name = name then .ok p else .error (.system .noEntry)
    | none => .error (.system .noEntry)

/-- The program of a name, started from a directory: a name with a slash is a path from there, any
other is looked for where programs are kept. -/
def Site.program (site : Site) (dir : Location) (name : Text) : Except IoError Program :=
  if '/' ∈ name then site.executable dir name else site.installed name

/-- The program of that name, and the project directory, which it is started in. -/
def Site.find (site : Site) (project name : Text) : Except IoError (Location × Program) :=
  if '\x00' ∈ name then .error .nulInProgram
  else do
    let dir ← site.tree.enter site.dir project
    let p ← site.program dir name
    .ok (dir, p)

/-- The tree after the compiler has written what it writes. -/
def Program.write (p : Program) (t : Tree) (dir : Location) (path : Text) : Tree :=
  match p.docs with
  | none => t
  | some content =>
    match t.writeFile dir path content with
    | .ok t => t
    | .error _ => t

/-- Runs the compiler in the project directory. -/
def runCompiler (s : Settings) (site : Site) : Except Failure Unit × Site :=
  match site.find s.project s.compiler with
  | .error e => (.error (.notStarted s.compiler e), site)
  | .ok (dir, p) =>
    let after := { site with
      tree := p.write site.tree dir artifactName
      started := some compilerArgs }
    if p.status = some 0 then (.ok (), after)
    else
      let status := p.status.map fun n => (n.toNat : Int)
      (.error (.compilerFailed s.compiler status (trim (Utf8.decodeLossy p.stderr))), after)

/-- Takes what the compiler wrote: it is read, then removed. -/
def takeArtifact (s : Settings) (site : Site) : Except Failure Text × Site :=
  match site.tree.readText site.dir s.artifactPath with
  | .error e => (.error (.artifact s.artifactPath e), site)
  | .ok json =>
    match site.tree.removeFile site.dir s.artifactPath with
    | .error e => (.error (.artifact s.artifactPath e), site)
    | .ok tree => (.ok json, { site with tree })

/-! ## Building -/

/-- The description of the modules: the input file, or what the compiler writes. -/
def load (s : Settings) (site : Site) : Except Failure Text × Site :=
  match s.input with
  | some path =>
    match site.tree.readText site.dir path with
    | .ok json => (.ok json, site)
    | .error e => (.error (.io e), site)
  | none =>
    if site.tree.isFile site.dir s.descriptorPath then
      match runCompiler s site with
      | (.ok (), site) => takeArtifact s site
      | (.error f, site) => (.error f, site)
    else (.error (.noDescriptor s.descriptorPath), site)

/-- Writes the reference. -/
def writeOutput (s : Settings) (reference : Text) (site : Site) : Except Failure Text × Site :=
  match site.tree.writeFile site.dir s.outputPath (Utf8.encode reference) with
  | .ok tree => (.ok s.outputPath, { site with tree })
  | .error e => (.error (.io e), site)

/-- Builds the reference of a project and returns the path it was written to. -/
def generate (s : Settings) (site : Site) : Except Failure Text × Site :=
  match load s site with
  | (.error f, site) => (.error f, site)
  | (.ok json, site) =>
    match render s.renderOptions json with
    | .error f => (.error f, site)
    | .ok reference => writeOutput s reference site

end RefBook
