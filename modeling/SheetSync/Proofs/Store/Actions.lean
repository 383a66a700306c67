import SheetSync.Proofs.Store.Reopen
/-!
Commands to a local store, as data. What a command can leave of the workbook is said once, in
`Action.Leaves`; a command that fails leaves the workbook as it was.

Main statement: `Store.hasOutcome`.
-/
namespace SheetSync

/-- The workbook file found under a path. -/
def FileTree.workbook? (t : FileTree) (path : String) : Option WorkbookFile :=
  (t.read path).toOption.bind fun found => WorkbookFile.ofContent? found.1

namespace Store

theorem isOk_map {ε α β : Type} (f : α → β) (r : Except ε α) : (r.map f).isOk = r.isOk := by
  cases r <;> rfl

/-! ## Commands as data -/

/-- A command to a store, or a change of the files that it reaches. -/
inductive Action where
  | create
  | open (path : String)
  | save (path : Option String)
  | edit (e : Edit)
  | getRange (id : String) (rect : Rect)
  | usedRange (id : String)
  | statFile (path : String)
  | listNames
  | listTables
  | files (files : FileTree)

namespace Action

def command : Action → StoreM Unit
  | create => do
    let _ ← newWorkbook
  | «open» path => do
    let _ ← openWorkbook path
  | save path => saveWorkbook path
  | edit e => e.command
  | getRange id rect => do
    let _ ← Store.getRange id rect
  | usedRange id => do
    let _ ← usedRange? id
  | statFile path => do
    let _ ← Store.statFile path
  | listNames => do
    let _ ← Store.listNames
  | listTables => do
    let _ ← Store.listTables
  | files found => modify fun s => { s with files := found }

/-- Whether a command has nothing to do with sheets and their cells. -/
def sparesSheets : Action → Bool
  | create | «open» _ | edit (.write _) | edit (.addSheet _ _) => false
  | _ => true

/-- The workbooks that a command can leave when it succeeds. -/
inductive Leaves (workbook : Option Workbook) (files : FileTree) : Action → Option Workbook → Prop
  | create : Leaves workbook files create (some .blank)
  | open {path : String} {f : WorkbookFile} (h : files.workbook? path = some f) :
    Leaves workbook files (.open path) (some (f.toWorkbook path))
  | write {b : Workbook} {w : Write} (hbook : workbook = some b) (hfits : w.Fits rangeLimit)
      (hsheet : (b.sheets.get? w.sheet).isSome) :
    Leaves workbook files (edit (.write w)) (some (b.after w))
  | addSheet {b : Workbook} {id name : String} (hbook : workbook = some b) :
    Leaves workbook files (edit (.addSheet id name)) (some (b.addSheet id name))
  | other {a : Action} {workbook' : Option Workbook} (ha : a.sparesSheets)
      (h : workbook'.map (·.sheets) = workbook.map (·.sheets)) :
    Leaves workbook files a workbook'

/-- What is left of the workbook when a command has come to a result. -/
structure Outcome (a : Action) (workbook : Option Workbook) (files : FileTree)
    (r : Except StoreError Unit) (workbook' : Option Workbook) : Prop where
  leaves : r.isOk → a.Leaves workbook files workbook'
  undone : r.isOk = false → workbook' = workbook

/-- Whether a command that is given to a local store comes to an outcome. -/
def HasOutcome (a : Action) (workbook : Option Workbook) (files : FileTree) : Prop :=
  ∃ r workbook' files', a.command.perform ⟨.local, workbook, none, files⟩ =
    (r, ⟨.local, workbook', none, files'⟩) ∧ a.Outcome workbook files r workbook'

end Action

/-! ## What commands come to -/

section Commands

variable {workbook : Option Workbook} {files : FileTree}

/-- What a command gives that is not asked for. -/
theorem perform_ignored {α : Type} (m : StoreM α) (s : Store) :
    (do let _ ← m : StoreM Unit).perform s =
      ((m.perform s).1.map fun _ => (), (m.perform s).2) := by
  refine (Activity.attempt_bind _ m _ s).trans ?_
  show _ = ((Activity.attempt (fun _ s => s) m s).1.map _, (Activity.attempt (fun _ s => s) m s).2)
  cases Activity.attempt (fun _ s => s) m s with
  | mk r t => cases r <;> rfl

/-- The sheet that a command reads. -/
def there (workbook : Option Workbook) (id : String) : Except StoreError Sheet :=
  match workbook with
  | some b => b.sheet id
  | none => .error .noWorkbook

theorem perform_getRange (id : String) (rect : Rect) :
    (getRange id rect).perform ⟨.local, workbook, none, files⟩ =
      (do
        let _ ← checkRange rect
        return rect.grid (← there workbook id).read, ⟨.local, workbook, none, files⟩) := by
  have h : (getRange id rect).perform ⟨.local, workbook, none, files⟩ =
      StoreM.perform (do
        let _ ← checkRange rect
        (← current).readRange id rect) ⟨.local, workbook, none, files⟩ := rfl
  rw [h]
  cases checkRange rect with
  | error e => rfl
  | ok =>
    cases workbook with
    | none => rfl
    | some b =>
      have h : StoreM.perform (do
          let _ ← (.ok () : Except StoreError Unit)
          (← current).readRange id rect) ⟨.local, some b, none, files⟩ =
        StoreM.perform (liftM (b.readRange id rect)) ⟨.local, some b, none, files⟩ := rfl
      rw [h]
      show StoreM.perform (liftM (b.sheet id >>= fun s => pure (rect.grid s.read))) _ =
        (b.sheet id >>= fun s => pure (rect.grid s.read), _)
      cases b.sheet id <;> rfl

theorem perform_usedRange? (id : String) :
    (usedRange? id).perform ⟨.local, workbook, none, files⟩ =
      ((there workbook id).map Sheet.usedRange?, ⟨.local, workbook, none, files⟩) := by
  cases workbook with
  | none => rfl
  | some b =>
    have h : (usedRange? id).perform ⟨.local, some b, none, files⟩ =
        StoreM.perform (do
          let s ← b.sheet id
          return s.usedRange?) ⟨.local, some b, none, files⟩ := rfl
    rw [h]
    show _ = ((b.sheet id).map Sheet.usedRange?, _)
    cases b.sheet id <;> rfl

/-- What a local store says of the state of what is under a path. -/
def statFound (path : String) : Except FileFault (Int × Nat) → StoreM FileStat
  | .error fault => throw (.file path fault)
  | .ok (time, size) => return ⟨if 0 ≤ time then some time else none, some size⟩

theorem perform_statFile_eq (path : String) :
    (statFile path).perform ⟨.local, workbook, none, files⟩ =
      (statFound path (files.state path)).perform ⟨.local, workbook, none, files⟩ := rfl

theorem perform_statFile (path : String) : ∃ r,
    (statFile path).perform ⟨.local, workbook, none, files⟩ =
      (r, ⟨.local, workbook, none, files⟩) := by
  rw [perform_statFile_eq]
  cases files.state path <;> exact ⟨_, rfl⟩

theorem hasOutcome_of_read {a : Action} {α : Type} {m : StoreM α} {r : Except StoreError α}
    (ha : a.sparesSheets) (hcommand : a.command = (do let _ ← m))
    (hm : m.perform ⟨.local, workbook, none, files⟩ = (r, ⟨.local, workbook, none, files⟩)) :
    a.HasOutcome workbook files := by
  refine ⟨r.map fun _ => (), workbook, files, ?_, fun _ => .other ha rfl, fun _ => rfl⟩
  rw [hcommand, perform_ignored, hm]

theorem hasOutcome_open (path : String) :
    (Action.open path).HasOutcome workbook files := by
  rw [Action.HasOutcome, Action.command, perform_ignored, perform_openWorkbook]
  cases hread : files.read path with
  | error fault => exact ⟨_, workbook, files, rfl, nofun, fun _ => rfl⟩
  | ok found =>
    dsimp only
    cases hf : WorkbookFile.ofContent? found.1 with
    | none => exact ⟨_, workbook, files, rfl, nofun, fun _ => rfl⟩
    | some f =>
      have hfile : files.workbook? path = some f := by
        rw [FileTree.workbook?, hread]
        exact hf
      exact ⟨_, some (f.toWorkbook path), files, rfl, fun _ => .open hfile, nofun⟩

theorem hasOutcome_save (path : Option String) :
    (Action.save path).HasOutcome workbook files := by
  rw [Action.HasOutcome, Action.command]
  cases workbook with
  | none => exact ⟨.error .noWorkbook, none, files, rfl, nofun, fun _ => rfl⟩
  | some b =>
    rw [perform_saveWorkbook]
    cases path.or b.path with
    | none => exact ⟨_, some b, files, rfl, nofun, fun _ => rfl⟩
    | some target =>
      dsimp only
      cases (FileTree.replace target (.text (WorkbookFile.ofWorkbook b).text)).run files with
      | mk r files' =>
        cases r with
        | error fault => exact ⟨_, some b, files', rfl, nofun, fun _ => rfl⟩
        | ok => exact ⟨_, some { b with path := some target }, files', rfl,
            fun _ => .other rfl rfl, nofun⟩

theorem hasOutcome_edit (e : Edit) : (Action.edit e).HasOutcome workbook files := by
  rw [Action.HasOutcome, Action.command]
  cases workbook with
  | none =>
    cases e with
    | write w =>
      obtain ⟨e, heq⟩ := exists_perform_apply_of_none w files
      exact ⟨.error e, none, files, heq, nofun, fun _ => rfl⟩
    | _ => exact ⟨.error .noWorkbook, none, files, rfl, nofun, fun _ => rfl⟩
  | some b =>
    cases e with
    | write w =>
      have hbook : Holds ⟨.local, some b, none, files⟩ b := ⟨rfl, rfl, rfl⟩
      refine ⟨_, some (b.after w), files, hbook.perform_apply w, fun hok => ?_, fun hfails => ?_⟩
      · rw [isOk_map] at hok
        obtain ⟨hfits, hsheet⟩ := (b.isOk_receive w).mp hok
        exact .write rfl hfits hsheet
      · rw [isOk_map] at hfails
        exact congrArg some (Workbook.after_of_refused hfails)
    | addSheet id name =>
      exact ⟨.ok (), some (b.addSheet id name), files, rfl, fun _ => .addSheet rfl, nofun⟩
    | defineName n =>
      exact ⟨.ok (), some (b.defineName n), files, rfl, fun _ => .other rfl rfl, nofun⟩
    | addTable t =>
      have h : (Edit.addTable t).command.perform ⟨.local, some b, none, files⟩ =
          StoreM.perform (do setCurrent (← (b.addTable t : Except _ _)) : StoreM Unit)
            ⟨.local, some b, none, files⟩ := rfl
      rw [h]
      cases hadd : b.addTable t with
      | error e => exact ⟨.error e, some b, files, rfl, nofun, fun _ => rfl⟩
      | ok b' =>
        have hsheets : b'.sheets = b.sheets := by
          unfold Workbook.addTable at hadd
          cases hs : b.sheet t.sheet with
          | error e =>
            rw [hs] at hadd
            cases hadd
          | ok s =>
            rw [hs] at hadd
            rw [← Except.ok.inj hadd]
        exact ⟨.ok (), some b', files, rfl, fun _ => .other rfl (congrArg some hsheets), nofun⟩

/-- Every command comes to an outcome; one that fails has left the workbook as it was. -/
theorem hasOutcome (a : Action) : a.HasOutcome workbook files := by
  cases a with
  | create => exact ⟨.ok (), some .blank, files, rfl, fun _ => .create, nofun⟩
  | «open» path => exact hasOutcome_open path
  | save path => exact hasOutcome_save path
  | edit e => exact hasOutcome_edit e
  | getRange id rect => exact hasOutcome_of_read rfl rfl (perform_getRange id rect)
  | usedRange id => exact hasOutcome_of_read rfl rfl (perform_usedRange? id)
  | statFile path =>
    obtain ⟨r, hr⟩ : ∃ r, (statFile path).perform ⟨.local, workbook, none, files⟩ = (r, _) :=
      perform_statFile path
    exact hasOutcome_of_read rfl rfl hr
  | listNames => cases workbook <;> exact hasOutcome_of_read rfl rfl rfl
  | listTables => cases workbook <;> exact hasOutcome_of_read rfl rfl rfl
  | files found => exact ⟨.ok (), workbook, found, rfl, fun _ => .other rfl rfl, nofun⟩

end Commands

end Store
end SheetSync
