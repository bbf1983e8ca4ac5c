import RefBook.CommandLine.Session

/-!
# RefBook.Main — the program

A run is worked out on a picture of the files it may touch; what it changes is then written back.
The program starts no other: without an input file, the compiler counts as one that cannot be found.
-/

namespace RefBook

/-- The text of a location as a path from the root. -/
def pathOfLocation (l : Location) : String :=
  String.ofList (l.flatMap ('/' :: ·))

/-- The locations that a path goes through, from the root down to where it leads. -/
def locationsThrough (dir : Location) (path : Text) : List Location :=
  let start := if isAbsolute path then [] else dir
  let step (ls : List Location) (name : Text) : List Location :=
    match Tree.child (ls.headD []) name with
    | .ok l => l :: ls
    | .error _ => ls
  (List.range start.length).map (fun n => start.take (n + 1))
    ++ ((pathNames path).foldl step [start]).reverse

/-- The paths that a run with these settings may touch. -/
def Settings.paths (s : Settings) : List Text :=
  [s.descriptorPath, s.artifactPath, s.outputPath] ++ s.input.toList

/-- What stands at a location of the disk; what cannot be read counts as absent. -/
def lookAt (l : Location) : IO (Option Node) := do
  let path := (← IO.currentDir) / pathOfLocation l
  if ← path.isDir then return some .directory
  try
    return some (.file (← IO.FS.readBinFile path).toList)
  catch _ => return none

/-- A picture of what stands at some locations. -/
def picture (ls : List Location) : IO Tree := do
  let mut tree : Tree := {}
  for l in ls do
    if let some node ← lookAt l then
      tree := tree.put l node
  return tree

/-- Writes back what a run has changed. -/
def writeBack (before after : Tree) : IO Unit := do
  for (l, node) in after.nodes do
    if before.get? l ≠ some node then
      if let .file content := node then
        IO.FS.writeBinFile (pathOfLocation l) ⟨content.toArray⟩
  for (l, _) in before.nodes do
    if after.get? l = none then
      IO.FS.removeFile (pathOfLocation l)

/-- Prints what a run prints, and ends with its status. -/
def Report.finish (r : Report) : IO UInt32 := do
  IO.print (String.ofList r.stdout)
  IO.eprint (String.ofList r.stderr)
  return r.status.toUInt32

end RefBook

open RefBook in
/-- Runs the program on its arguments. -/
def main (args : List String) : IO UInt32 := do
  let args := args.map (·.toList)
  let dir := pathNames (← IO.currentDir).toString.toList
  let paths := match readArguments args with
    | .ok settings => settings.paths
    | .error _ => []
  let before ← picture (paths.flatMap (locationsThrough dir)).eraseDups
  let report := run args { tree := before, dir, compiler := none }
  try
    writeBack before report.site.tree
    report.finish
  catch e =>
    -- the disk refused what the picture allowed
    let failure := Failure.io (.other (toString e).toList)
    { report with status := failure.exitStatus, stderr := failure.line }.finish
