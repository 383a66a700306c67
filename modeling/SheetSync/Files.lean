import SheetSync.Error
import SheetSync.Text.Utf8
/-!
A tree of files as far as a session can tell it apart: contents, times of change, and the faults of
paths that lead nowhere. Relative paths start from a directory of which it is only known that there
are directories above it, and absolute ones from a root of their own. An operation that fails may
have made directories before, which stay.
-/
namespace SheetSync

/-- The bytes of a file, as text where they are text. -/
inductive Content where
  | text (s : String)
  | raw (bytes : List UInt8)
deriving DecidableEq, Inhabited

namespace Content

def ofBytes (bytes : List UInt8) : Content :=
  match String.fromUTF8? ⟨bytes.toArray⟩ with
  | some s => .text s
  | none => .raw bytes

/-- The content as text, with a replacement character for whatever is none. -/
def readable : Content → String
  | text s => s
  | raw bytes => String.ofList (Text.Utf8.filled '\ufffd' (Text.Utf8.decode bytes))

/-- The number of bytes. -/
def size : Content → Nat
  | text s => s.utf8ByteSize
  | raw bytes => bytes.length

end Content

/-- A file with the time of its last change in milliseconds since 1970, or a directory. -/
inductive FileNode where
  | file (content : Content) (modified : Int)
  | directory
deriving DecidableEq, Inhabited

abbrev FilePath := List String

/-- Files and directories by path; where paths start from is left out. -/
structure FileTree where
  nodes : List (FilePath × FileNode) := []
  /-- The time that a file written now gets. -/
  clock : Int := 0
  /-- The time and the size that are told of any directory. Which of them changed when, and how
  large each one is, is left out. -/
  directory : Int × Nat := (0, 4096)
deriving DecidableEq, Inhabited

namespace FileTree

/-- The root of all absolute paths. -/
def rootName : String := "/"

/-- The directory where relative paths start, the root, and those above the start. -/
def isGiven (p : FilePath) : Bool := p.all (· = "..") || p = [rootName]

def node? (t : FileTree) (p : FilePath) : Option FileNode :=
  if isGiven p then some .directory else t.nodes.lookup p

def put (t : FileTree) (p : FilePath) (n : FileNode) : FileTree :=
  { t with nodes := (p, n) :: t.nodes.filter (·.1 ≠ p) }

def remove (t : FileTree) (p : FilePath) : FileTree :=
  { t with nodes := t.nodes.filter (·.1 ≠ p) }

/-! ## Paths -/

/-- The steps of a written path: names of what lies below, `.` for the place itself and `..` for the
directory above. -/
def steps (path : String) : List String := (path.splitOn "/").filter (· ≠ "")

/-- Where a written path starts. -/
def origin (path : String) : FilePath := if path.startsWith "/" then [rootName] else []

/-- The directory above; the root is above itself. -/
def above (p : FilePath) : FilePath :=
  if p = [rootName] then p else if p.all (· = "..") then p ++ [".."] else p.dropLast

/-- The most bytes of a name. -/
def nameLimit : Nat := 255

/-- The most bytes of a written path. -/
def pathLimit : Nat := 4095

/-- Follows steps from a directory. All but the last must lead to directories. -/
def follow (t : FileTree) : FilePath → List String → Except FileFault FilePath
  | here, [] => .ok here
  | here, step :: rest =>
    match t.node? here with
    | none => .error .notFound
    | some (.file _ _) => .error .notADirectory
    | some .directory =>
      if step = "." then t.follow here rest
      else if step = ".." then t.follow (above here) rest
      else if nameLimit < step.utf8ByteSize then .error .invalidFilename
      else t.follow (here ++ [step]) rest

/-- The place that a written path names, whether or not something is there. -/
def locate (t : FileTree) (path : String) : Except FileFault FilePath :=
  if path.contains '\x00' then .error .invalidInput
  else if path = "" then .error .notFound
  else if pathLimit < path.utf8ByteSize then .error .invalidFilename
  else t.follow (origin path) (steps path)

/-- What a written path leads to. -/
def find (t : FileTree) (path : String) : Except FileFault (FilePath × FileNode) := do
  let p ← t.locate path
  match t.node? p with
  | none => .error .notFound
  | some (.file content time) =>
    if path.endsWith "/" then .error .notADirectory else .ok (p, .file content time)
  | some .directory => .ok (p, .directory)

/-- The content of a file and its time. -/
def read (t : FileTree) (path : String) : Except FileFault (Content × Int) := do
  match ← t.find path with
  | (_, .file content time) => .ok (content, time)
  | (_, .directory) => .error .isADirectory

/-- The time of the last change of what a written path leads to, and its size. -/
def state (t : FileTree) (path : String) : Except FileFault (Int × Nat) := do
  match ← t.find path with
  | (_, .file content time) => .ok (time, content.size)
  | (_, .directory) => .ok t.directory

/-- Whether a written path ends in a step to the place itself or to the directory above. -/
def endsInDots (path : String) : Bool :=
  match (steps path).getLast? with
  | some step => step = "." || step = ".."
  | none => true

/-- Writes a file whose directory is there. What can only be a directory is no file. -/
def write (t : FileTree) (path : String) (content : Content) (time : Int) :
    Except FileFault FileTree := do
  let p ← t.locate path
  if t.node? p = some .directory ∨ path.endsWith "/" ∨ endsInDots path then .error .isADirectory
  else .ok (t.put p (.file content time))

/-- Sets the time of a file. -/
def touch (t : FileTree) (path : String) (time : Int) : Except FileFault FileTree := do
  match ← t.find path with
  | (p, .file content _) => .ok (t.put p (.file content time))
  | (_, .directory) => .error .isADirectory

def delete (t : FileTree) (path : String) : Except FileFault FileTree := do
  match ← t.find path with
  | (p, .file _ _) => .ok (t.remove p)
  | (_, .directory) => .error .isADirectory

/-! ## Making directories -/

/-- Makes one directory. -/
def makeOne (t : FileTree) (path : String) : Except FileFault FileTree := do
  let p ← t.locate path
  if endsInDots path ∨ (t.node? p).isSome then .error .alreadyExists else .ok (t.put p .directory)

def isDirectory (t : FileTree) (path : String) : Bool :=
  match t.find path with
  | .ok (_, .directory) => true
  | _ => false

/-- An operation on files. What it changed stays changed when it fails. -/
abbrev FileM (α : Type) := ExceptT FileFault (StateM FileTree) α

/-- Makes a directory, or fails unless it is there. -/
def ensure (path : String) : FileM Unit := do
  let t ← get
  match t.makeOne path with
  | .ok made => set made
  | .error e => if !t.isDirectory path then throw e

/-- The written paths of all directories on the way to a place, the longest first, given the first
piece of the place's path and the others from the last. -/
def way (first : String) : List String → List String
  | [] => if first = "" then [] else [first]
  | step :: rest =>
    if step = "" ∨ step = "." then way first rest
    else "/".intercalate (first :: (step :: rest).reverse) :: way first rest

/-- The written paths of a place and of the directories on the way to it, the longest first. -/
def ancestors (path : String) : List String :=
  match path.splitOn "/" with
  | first :: rest => if path = "" then [] else path :: (way first rest.reverse).tail
  | [] => []

/-- Makes the first of some directories, and before it the others if it needs them. -/
def ensureAll : List String → FileM Unit
  | [] => return
  | path :: above => do
    match (← get).makeOne path with
    | .error .notFound =>
      ensureAll above
      ensure path
    | _ => ensure path

/-- Makes a directory and those above it. -/
def makeDirectory (path : String) : FileM Unit := ensureAll (ancestors path)

/-- The directory part of a written path. -/
def parent (path : String) : String :=
  match ancestors path with
  | _ :: above :: _ => above
  | _ => if path.startsWith "/" then "/" else "."

/-- Where a file in a directory is written before it gets its place. -/
def draft (directory : String) : String := directory ++ "/.tmp000000"

/-- Moves a complete file to a place, whatever file was there. -/
def moveInto (t : FileTree) (path : String) (content : Content) : Except FileFault FileTree := do
  let p ← t.locate path
  if endsInDots path then .error .busy
  else if path.endsWith "/" then .error .notADirectory
  else if t.node? p = some .directory then .error .isADirectory
  else .ok (t.put p (.file content t.clock))

/-- Replaces a file at once, its directory made if need be. -/
def replace (path : String) (content : Content) : FileM Unit := do
  makeDirectory (parent path)
  let t ← get
  let _ ← t.locate (draft (parent path))
  set (← t.moveInto path content)

/-- The names below a directory, each relative to it, in order; those of directories end in a
slash. -/
def list (t : FileTree) (path : String) : Except FileFault (List String) := do
  match ← t.find path with
  | (_, .file _ _) => .error .notADirectory
  | (p, .directory) =>
    let below := t.nodes.filterMap fun (q, n) =>
      if p.isPrefixOf q && q ≠ p && (p ≠ [] || q.head? ∉ [some rootName, some ".."]) then
        let name := "/".intercalate (q.drop p.length)
        some (match n with
          | .file _ _ => name
          | .directory => name ++ "/")
      else none
    .ok (below.mergeSort (· ≤ ·))

end FileTree

end SheetSync
