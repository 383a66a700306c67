import SheetSync.CommandLine.Run
import SheetSync.Main
import SheetSync.Wire.Document
import SheetSync.Wire.Refresh
import SheetSync.Wire.Report
import SheetSync.Wire.Session
import SheetSync.Wire.Store
import SheetSync.Proofs.Activity
import SheetSync.Proofs.Keyed
import SheetSync.Proofs.Cache
import SheetSync.Proofs.Refresh
import SheetSync.Proofs.Json.Text
import SheetSync.Proofs.Json.Reader
import SheetSync.Proofs.Files
import SheetSync.Proofs.Cell.Rect
import SheetSync.Proofs.Cell.Sheet
import SheetSync.Proofs.Cell.Value
import SheetSync.Proofs.Document
import SheetSync.Proofs.Plan
import SheetSync.Proofs.Queue
import SheetSync.Proofs.Queue.History
import SheetSync.Proofs.Queue.Turns
import SheetSync.Proofs.Queue.Stability
import SheetSync.Proofs.Queue.Results
import SheetSync.Proofs.Store
import SheetSync.Proofs.Store.File
import SheetSync.Proofs.Store.Loading
import SheetSync.Proofs.Store.Planned
import SheetSync.Proofs.Store.Reopen
import SheetSync.Proofs.Transfer
import SheetSync.Proofs.Link
import SheetSync.Proofs.Workbook.Identity
import SheetSync.Proofs.Workbook.Signature
import SheetSync.Proofs.Session.Run
import SheetSync.Proofs.Session.Command
import SheetSync.Proofs.Session.Transfer
import SheetSync.Proofs.Session.Steps
import SheetSync.Proofs.Session.Saving
import SheetSync.Proofs.Session.Swap
import SheetSync.Proofs.Session.Rest
import SheetSync.Proofs.Session.Ordering
import SheetSync.Proofs.Session.Failure
import SheetSync.Proofs.Session.RollBack
import SheetSync.Proofs.Session.Consistency
import SheetSync.Proofs.Session.Phases
import SheetSync.Proofs.Session.Binding
import SheetSync.Proofs.Session.Opening
import SheetSync.Proofs.Session.Caches
import SheetSync.Proofs.Session.Limits
import SheetSync.Proofs.Session.Tracking
import SheetSync.Proofs.Session.Saved
import SheetSync.Proofs.Session.Pace
import SheetSync.Proofs.Session.Outcome
import SheetSync.Proofs.Session.Refusal
import SheetSync.Proofs.Session.Following
import SheetSync.Proofs.Session.Schedules
import SheetSync.Proofs.Store.Replaying
import SheetSync.Proofs.Store.LastEdits
import SheetSync.Proofs.Store.Planning
import SheetSync.Proofs.Document.Answers
import SheetSync.Proofs.Document.Order
import SheetSync.Proofs.Document.Edits
import SheetSync.Proofs.Cache.Workbook
import SheetSync.Proofs.Store.Names
import SheetSync.Proofs.Link.Handles
import SheetSync.Proofs.Document.Snapshots
import SheetSync.Proofs.Cell.Chunks
import SheetSync.Proofs.Store.Signatures
import SheetSync.Proofs.Session.Alone
import SheetSync.Proofs.Simulation.Difference
import SheetSync.Proofs.Simulation.Report
