/-!
How a workbook is named: by its durable path, or by a session token while it has none. Tokens are
counted, so a new one differs from all before it, and they carry a key, so that they cannot be made
up by whoever does not know it.
-/
namespace SheetSync

/-- A sheet of a workbook. -/
structure SheetInfo where
  id : String
  name : String
deriving DecidableEq, Inhabited

/-- What is known of a workbook without its content. -/
structure Descriptor where
  path : Option String
  originPath : Option String
  sheets : List SheetInfo
deriving DecidableEq, Inhabited

namespace Descriptor

def withPath (d : Descriptor) (path : String) : Descriptor := { d with path := some path }

def withOriginPath (d : Descriptor) (path : String) : Descriptor :=
  { d with originPath := some path }

/-- The path that the workbook can be found under again: its own, or else that of its origin; an
empty one does not count. -/
def durablePath? (d : Descriptor) : Option String :=
  match d.path.filter (· ≠ "") with
  | some p => some p
  | none => d.originPath.filter (· ≠ "")

def savePath? (d : Descriptor) : Option String := d.path.filter (· ≠ "")

def sheet? (d : Descriptor) (id : String) : Option SheetInfo := d.sheets.find? (·.id == id)

end Descriptor

/-- Digits of a number to base sixteen, at least `width` of them. -/
def hexDigits (width n : Nat) : String :=
  let ds := Nat.toDigits 16 n
  String.ofList (List.replicate (width - ds.length) '0' ++ ds)

/-- Where session tokens come from: a key, and how many were given out. -/
structure TokenSource where
  key : Nat := 0
  given : Nat := 0
deriving DecidableEq, Inhabited

namespace TokenSource

/-- The text of the next token, laid out like a random identifier of version 4. Its last part counts
the tokens, and the others are digits of the key. -/
def token (s : TokenSource) : String :=
  let digits (shift width : Nat) : String := hexDigits width (s.key / Nat.pow 16 shift % Nat.pow 16 width)
  s!"session:{digits 0 8}-{digits 8 4}-4{digits 12 3}-8{digits 15 3}-{hexDigits 12 s.given}"

def next (s : TokenSource) : String × TokenSource := (s.token, { s with given := s.given + 1 })

end TokenSource

/-- The identity of a workbook. -/
structure WorkbookId where
  text : String
deriving DecidableEq, Inhabited

namespace WorkbookId

def ofPath (path : String) : WorkbookId := ⟨"path:" ++ path⟩

end WorkbookId

/-- Names one loaded state of a workbook, for the caches. -/
structure Signature where
  text : String
deriving DecidableEq, Inhabited

/-- What the file system tells of a file: time of its last change in milliseconds, and size. -/
structure FileStat where
  modified : Option Int
  size : Option Nat
deriving DecidableEq, Inhabited

namespace FileStat

/-- Both facts, if both are known. -/
def complete? (s : FileStat) : Option (Int × Nat) :=
  match s.modified, s.size with
  | some t, some n => some (t, n)
  | _, _ => none

end FileStat

namespace Signature

/-- Path, time and size joined by colons where both facts are known, and else the bare path. -/
def ofStat (path : String) (stat : FileStat) : Signature :=
  match stat.complete? with
  | some (time, size) => ⟨s!"{path}:{time}:{size}"⟩
  | none => ⟨path⟩

end Signature

end SheetSync
