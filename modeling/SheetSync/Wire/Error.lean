import SheetSync.Error
import SheetSync.Queue.Basic
import SheetSync.Wire.Workbook
/-!
Errors as JSON: the kind of the cause, its wording if it has one, and the errors behind it.
-/
namespace SheetSync

open Json (Decoder)

/-- The member for a wording, if there is one. -/
def messageMember (text : Option String) : List (String × Json) :=
  text.toList.map fun t => ("message", .str t)

namespace FileFault

def name : FileFault → String
  | notFound => "NotFound"
  | isADirectory => "IsADirectory"
  | notADirectory => "NotADirectory"
  | alreadyExists => "AlreadyExists"
  | busy => "ResourceBusy"
  | invalidInput => "InvalidInput"
  | invalidFilename => "InvalidFilename"

def members (e : FileFault) : List (String × Json) := [("error", .str "Io"), ("io", .str e.name)]

end FileFault

namespace StoreError

def kind : StoreError → String
  | unsupported _ _ => "Unsupported"
  | noWorkbook => "NoWorkbook"
  | sheetNotFound _ => "SheetNotFound"
  | invalidRange _ => "InvalidRange"
  | rangeTooLarge _ _ _ => "RangeTooLarge"
  | shapeMismatch _ _ _ => "ShapeMismatch"
  | noSavePath => "NoSavePath"
  | file _ _ => "Io"
  | malformed _ => "Serialization"
  | rejected _ => "Rejected"

def members (e : StoreError) : List (String × Json) :=
  ("error", .str e.kind) ::
    match e with
    | file path fault => [("path", .str path), ("io", .str fault.name)]
    | malformed path => [("path", .str path)]
    | e => messageMember e.message?

def toJson (e : StoreError) : Json := .obj e.members

def ofJson? : Decoder StoreError := fun j => do
  let rect := j.required "rect" Rect.ofJson?
  let number (key : String) := j.required key (Decoder.nat 64)
  let text (key : String) := j.required key Decoder.string
  match ← text "variant" with
  | "Unsupported" => return unsupported (← text "backend") (← text "operation")
  | "NoWorkbook" => return noWorkbook
  | "SheetNotFound" => return sheetNotFound (← text "sheet")
  | "InvalidRange" => return invalidRange (← rect)
  | "RangeTooLarge" => return rangeTooLarge (← rect) (← number "cells") (← number "limit")
  | "ShapeMismatch" => return shapeMismatch (← rect) (← number "rows") (← number "cols")
  | "NoSavePath" => return noSavePath
  | "Rejected" => return rejected (← text "reason")
  | _ => none

end StoreError

namespace SignatureMismatch

def members (e : SignatureMismatch) : List (String × Json) :=
  [("error", .str "SignatureMismatch"), ("message", .str e.message)]

end SignatureMismatch

namespace Phase

def toJson (p : Phase) : Json := .str p.name

def ofJson? : Decoder Phase := Decoder.choice (all.map fun p => (p.name, p))

end Phase

namespace SyncError

def kind : SyncError → String
  | store _ => "Backend"
  | cache _ => "Cache"
  | noActiveWorkbook => "NoActiveWorkbook"
  | transitionInProgress => "TransitionInProgress"
  | illegalPhase _ _ => "IllegalPhase"
  | restoreFailed _ _ => "RestoreFailed"
  | config _ => "Config"

def members (e : SyncError) : List (String × Json) :=
  [("error", .str e.kind), ("userVisible", .bool e.isUserVisible), ("internal", .bool e.isInternal)]
    ++ messageMember e.message? ++
    match e with
    | store e => [("cause", e.toJson)]
    | cache e => [("cause", .obj e.members)]
    | restoreFailed transition restore =>
      [("transition", .obj transition.members), ("restore", .obj restore.members)]
    | _ => []

def toJson (e : SyncError) : Json := .obj e.members

/-- Reads an error that nests at most so deep. -/
def ofJson? : Nat → Decoder SyncError
  | 0, _ => none
  | n + 1, j => do
    match ← j.required "variant" Decoder.string with
    | "NoActiveWorkbook" => return noActiveWorkbook
    | "TransitionInProgress" => return transitionInProgress
    | "IllegalPhase" =>
      return illegalPhase (← j.required "from" Phase.ofJson?) (← j.required "to" Phase.ofJson?)
    | "Config" => return config (.stated (← j.required "reason" Decoder.string))
    | "RestoreFailed" =>
      return restoreFailed (← j.required "transition" (ofJson? n))
        (← j.required "restore" (ofJson? n))
    | _ => return store (← StoreError.ofJson? j)

/-- Whether it is the store that does not support something. -/
def isUnsupported : SyncError → Bool
  | store e => e.isUnsupported
  | _ => false

end SyncError

namespace OpError

def kind {ε : Type} : OpError ε → String
  | failed _ => "Failed"
  | panicked _ => "Panicked"
  | closed => "QueueClosed"

/-- The members of a failure, given the wording of an operation's own errors. -/
def members {ε : Type} (text : ε → Option String) (e : OpError ε) : List (String × Json) :=
  [("error", .str e.kind), ("message", .ofOption .str (e.message? text)),
    ("failure", .ofOption .str (e.failure?.bind text))]

/-- What an operation came to. -/
def resultJson {ε α : Type} (text : ε → Option String) (value : α → Json) :
    Except (OpError ε) α → Json
  | .ok a => .obj [("ok", value a)]
  | .error e => .obj (e.members text)

def ofJson? : Decoder (OpError StoreError) := fun j => do
  match ← j.required "opError" Decoder.string with
  | "Failed" => return failed (← StoreError.ofJson? j)
  | "Panicked" => return panicked (← j.required "reason" Decoder.string)
  | "QueueClosed" => return closed
  | _ => none

end OpError

end SheetSync
