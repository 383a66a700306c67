import SheetSync.CommandLine.Run
/-!
The program: it takes in the files that its arguments name and what is in the directory where it is
to save, runs on them, prints, and writes the files that are new or changed.
-/
namespace SheetSync.CommandLine

/-- The paths that a command looks at. -/
def Command.paths : Command → List String
  | .simulate o => o.config.toList ++ o.directory.toList
  | .signature path => [path]
  | _ => []

/-- The directories that a command saves to. -/
def Command.directories : Command → List String
  | .simulate o => o.directory.toList
  | _ => []

/-- A path and those of the directories above it. -/
def prefixes (path : String) : List String :=
  let start := if path.startsWith "/" then "/" else ""
  let steps := FileTree.steps path
  (List.range steps.length).map fun i => start ++ "/".intercalate (steps.take (i + 1))

/-- The time of the last change of a file in milliseconds. -/
def modified (path : String) : IO Int := do
  let time := (← (← IO.FS.realPath path).metadata).modified
  return time.sec * 1000 + time.nsec.toNat / 1000000

/-- Takes what is at a path into a tree. -/
def takeIn (files : FileTree) (path : String) : IO FileTree := do
  try
    let bytes ← IO.FS.readBinFile path
    let time ← modified path
    return ((files.write path (.ofBytes bytes.toList) time).toOption).getD files
  catch _ =>
    if ← isDirectory path then return ((FileTree.makeDirectory path).run files).2
    else return files
where
  isDirectory (path : String) : IO Bool := do
    try
      return (← (← IO.FS.realPath path).metadata).type == .dir
    catch _ => return false

/-- The paths of what is in a directory, if it is there. -/
def entries (path : String) : IO (List String) := do
  try
    let found ← (← IO.FS.realPath (if path = "" then "." else path)).readDir
    return found.toList.map fun e => Simulation.inDirectory path e.fileName
  catch _ => return []

/-- The bytes of a content. -/
def bytes : Content → ByteArray
  | .text s => s.toUTF8
  | .raw bs => ⟨bs.toArray⟩

/-- Writes a node of a tree. -/
def putOut (p : FilePath) (n : FileNode) : IO Unit := do
  let path := "/".intercalate (if p.head? = some FileTree.rootName then "" :: p.tail else p)
  match n with
  | .directory => IO.FS.createDirAll path
  | .file content _ => IO.FS.writeBinFile path (bytes content)

end SheetSync.CommandLine

open SheetSync CommandLine

def main (args : List String) : IO UInt32 := do
  let paths := ((command? args).map Command.paths).getD []
  let directories := ((command? args).map Command.directories).getD []
  let inside ← directories.mapM entries
  let before ← (paths.flatMap prefixes ++ inside.flatten).foldlM takeIn {}
  let out := run args before
  IO.print out.output
  for (p, n) in out.files.nodes.reverse do
    if before.node? p ≠ some n then putOut p n
  return UInt32.ofNat out.code
