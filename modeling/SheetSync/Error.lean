import SheetSync.Cell.Rect
import SheetSync.Phase
import SheetSync.Text.Quoted
import SheetSync.Workbook.Identity
/-!
Everything that can go wrong, by cause. The wording of a cause is in one function for each type; a
cause that carries a fault of the file system or of a file's text has no wording of its own.
-/
namespace SheetSync

/-- Why a file operation failed. -/
inductive FileFault where
  | notFound
  | isADirectory
  | notADirectory
  | alreadyExists
  | busy
  /-- A path with a NUL character in it. -/
  | invalidInput
  /-- A path or a name in it is too long. -/
  | invalidFilename
deriving DecidableEq, Inhabited

/-- Why a store refused a command. -/
inductive StoreError where
  | unsupported (store operation : String)
  | noWorkbook
  | sheetNotFound (sheet : String)
  | invalidRange (rect : Rect)
  | rangeTooLarge (rect : Rect) (cells limit : Nat)
  | shapeMismatch (rect : Rect) (rows cols : Nat)
  | noSavePath
  | file (path : String) (fault : FileFault)
  | malformed (path : String)
  | rejected (reason : String)
deriving DecidableEq, Inhabited

namespace StoreError

def message? : StoreError → Option String
  | unsupported store operation => some s!"{operation} is not supported by the {store} backend"
  | noWorkbook => some "no workbook is open"
  | sheetNotFound sheet => some s!"sheet not found: {sheet}"
  | invalidRange rect => some s!"invalid range {rect.text}"
  | rangeTooLarge rect cells limit =>
    some s!"range {rect.text} covers {cells} cells (limit {limit})"
  | shapeMismatch rect rows cols =>
    some s!"values shape {rows}x{cols} does not match range {rect.text}"
  | noSavePath => some "no save path provided"
  | file _ _ => none
  | malformed _ => none
  | rejected reason => some s!"backend rejected command: {reason}"

def isUnsupported : StoreError → Bool
  | unsupported _ _ => true
  | _ => false

end StoreError

/-- A cache is scoped to another signature than the caller's. -/
structure SignatureMismatch where
  expected : Option Signature
  actual : Signature
deriving DecidableEq, Inhabited

namespace SignatureMismatch

def message (e : SignatureMismatch) : String :=
  let held := match e.expected with
    | some s => s!"Some(WorkbookSignature({Text.quoted s.text}))"
    | none => "None"
  s!"signature mismatch: cache holds {held}, entries carry {e.actual.text}"

end SignatureMismatch

/-- Why a configuration is refused. -/
inductive ConfigFault where
  | chunkShape
  | writeArea (area : Nat)
  | unreadable
  | stated (reason : String)
deriving DecidableEq, Inhabited

namespace ConfigFault

def message? : ConfigFault → Option String
  | chunkShape => some "load chunk dimensions must be positive"
  | writeArea area => some s!"max_range_write_area must be at least 2, got {area}"
  | unreadable => none
  | stated reason => some reason

end ConfigFault

/-- Why a request to a session failed. -/
inductive SyncError where
  | store (e : StoreError)
  | cache (e : SignatureMismatch)
  | noActiveWorkbook
  | transitionInProgress
  | illegalPhase (source target : Phase)
  | restoreFailed (transition restore : SyncError)
  | config (fault : ConfigFault)
deriving DecidableEq, Inhabited

namespace SyncError

def message? : SyncError → Option String
  | store e => e.message?.map ("backend error: " ++ ·)
  | cache e => some ("cache error: " ++ e.message)
  | noActiveWorkbook => some "no active workbook"
  | transitionInProgress => some "a workbook transition is already in progress"
  | illegalPhase source target =>
    some s!"illegal transition phase change: {source.name} -> {target.name}"
  | restoreFailed transition restore => do
    let first ← transition.message?
    let second ← restore.message?
    return s!"{first}; restoring the previous workbook also failed: {second}"
  | config fault => fault.message?.map ("configuration error: " ++ ·)

/-- Whether the user should be told. -/
def isUserVisible : SyncError → Bool
  | config _ => false
  | _ => true

/-- Whether the fault is the session's own. -/
def isInternal : SyncError → Bool
  | illegalPhase _ _ => true
  | _ => false

end SyncError

end SheetSync
