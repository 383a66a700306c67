import SheetSync.Proofs.Files
import SheetSync.Proofs.Store
import SheetSync.Proofs.Store.File
import SheetSync.Proofs.Transfer
/-!
Saving a workbook and opening the file. What a local store keeps is proper: sheets have different
ids, no cell is stored empty, and all numbers are of the size that they have. So the file of a
workbook has all there is to it, and the workbook that is opened from it is the one that was saved.

Main statement: `Store.saved_workbook_reopens`.
-/
namespace SheetSync

/-! ## Sheets -/

theorem ByPosition.ofEntries_toList {α : Type} (m : ByPosition α) : ofEntries m.toList = m := by
  have hnodup : (m.toList.map Prod.fst).Nodup := by
    rw [Std.ExtTreeMap.map_fst_toList_eq_keys]
    exact Std.ExtTreeMap.nodup_keys
  apply Std.ExtTreeMap.ext_getElem?
  intro q
  ext a
  rw [getElem?_ofEntries_of_nodup hnodup, Std.ExtTreeMap.mem_toList_iff_getElem?_eq_some]

namespace Sheet

/-- A sheet that stores no empty cell, and only proper values in places that it has. -/
def IsProper (s : Sheet) : Prop :=
  ∀ (p : Position) (c : CellState),
    s.cells[p]? = some c → p.InGrid ∧ c.isEmpty = false ∧ c.value.IsProper

theorem isProper_empty (name : String) : ({ name } : Sheet).IsProper := by
  intro p c h
  simp at h

theorem IsProper.put {s : Sheet} (h : s.IsProper) {p : Position} {c : CellState} (hp : p.InGrid)
    (hc : c.value.IsProper) : (s.put p c).IsProper := by
  intro q d hd
  by_cases hempty : c.isEmpty
  · simp only [Sheet.put, hempty, if_true, ByPosition.getElem?_erase] at hd
    split at hd
    · cases hd
    · exact h q d hd
  · rw [Bool.not_eq_true] at hempty
    simp only [Sheet.put, hempty, Bool.false_eq_true, if_false, ByPosition.getElem?_insert] at hd
    split at hd
    · next heq =>
      obtain rfl := Option.some.inj hd
      exact ⟨heq ▸ hp, hempty, hc⟩
    · exact h q d hd

theorem IsProper.putAll {s : Sheet} (h : s.IsProper) {cells : List (Position × CellState)}
    (hcells : ∀ c ∈ cells, c.1.InGrid ∧ c.2.value.IsProper) : (s.putAll cells).IsProper := by
  induction cells using List.reverseRecOn with
  | nil => exact h
  | append_singleton cells c ih =>
    obtain ⟨hp, hc⟩ := hcells c (by simp)
    rw [putAll_concat]
    exact (ih fun d hd => hcells d (List.mem_append_left _ hd)).put hp hc

/-- A sheet that was read from a file is proper. -/
theorem isProper_ofSnapshot {s : SheetSnapshot} (h : ∀ c ∈ s.cells, c.IsProper) :
    (ofSnapshot s.withoutEmpty).IsProper := by
  intro p c hc
  have hmem : (p, c) ∈ s.withoutEmpty.cells.map fun c => (c.position, c.state) := by
    apply ByPosition.mem_of_getElem?_ofEntries
    simpa [ofSnapshot, ByPosition.ofEntries, List.foldl_map] using hc
  obtain ⟨d, hd, heq⟩ := List.mem_map.mp hmem
  obtain ⟨rfl, rfl⟩ := Prod.mk.inj heq
  obtain ⟨hd, hempty⟩ := List.mem_filter.mp hd
  exact ⟨⟨(h d hd).row, (h d hd).col⟩, by simpa using hempty, (h d hd).value⟩

/-- A sheet without empty cells is the sheet of its copy. -/
theorem IsProper.ofSnapshot_snapshot {s : Sheet} (h : s.IsProper) (id : String) :
    ofSnapshot (s.snapshot id).withoutEmpty = s := by
  have hfilter : s.cells.toList.filter (fun c => !c.2.isEmpty) = s.cells.toList :=
    List.filter_eq_self.mpr fun c hc => by
      simp [(h c.1 c.2 (Std.ExtTreeMap.mem_toList_iff_getElem?_eq_some.mp hc)).2.1]
  have hcells : (s.snapshot id).withoutEmpty.cells.map (fun c => (c.position, c.state)) =
      s.cells.toList := by
    have hmap : (s.snapshot id).cells =
        s.cells.toList.map fun c => ⟨c.1.row, c.1.col, c.2⟩ := by
      simp only [snapshot, SheetSnapshot.ofCells, hfilter]
    rw [SheetSnapshot.withoutEmpty, hmap]
    simp only [List.filter_map, Function.comp_def, hfilter, List.map_map]
    exact List.map_id _
  have hfold : (ofSnapshot (s.snapshot id).withoutEmpty).cells = s.cells := by
    rw [← ByPosition.ofEntries_toList s.cells, ← hcells]
    simp [ofSnapshot, ByPosition.ofEntries, List.foldl_map]
  obtain ⟨name, cells⟩ := s
  exact congrArg (Sheet.mk name) hfold

end Sheet

/-! ## Workbooks -/

/-- A write in which all rows, columns and values are of their size. -/
def Write.IsProper : Write → Prop
  | .range _ rect values => rect.InGrid ∧ ∀ line ∈ values, ∀ e ∈ line, e.value.IsProper
  | .point _ p e => p.InGrid ∧ e.value.IsProper

theorem Write.IsProper.entries {w : Write} (h : w.IsProper) :
    ∀ e ∈ w.entries, e.1.InGrid ∧ e.2.value.IsProper := by
  intro e he
  cases w with
  | point sheet p edit =>
    obtain rfl := List.mem_singleton.mp he
    exact h
  | range sheet rect values =>
    obtain ⟨⟨row, line⟩, hline, he⟩ := List.mem_flatMap.mp he
    obtain ⟨⟨col, edit⟩, hedit, rfl⟩ := List.mem_map.mp he
    have hrow := (Rect.mem_rowRange.mp (List.of_mem_zip hline).1).2
    have hcol := (Rect.mem_colRange.mp (List.of_mem_zip hedit).1).2
    exact ⟨⟨lt_of_le_of_lt hrow h.1.bottom, lt_of_le_of_lt hcol h.1.right⟩,
      h.2 line (List.of_mem_zip hline).2 edit (List.of_mem_zip hedit).2⟩

namespace Workbook

/-- A workbook as a local store keeps it. -/
structure IsProper (w : Workbook) : Prop where
  ids : (Keyed.keys w.sheets).Nodup
  sheets : ∀ e ∈ w.sheets, e.2.IsProper
  tables : ∀ t ∈ w.tables, t.rect.InGrid

theorem isProper_blank : blank.IsProper where
  ids := by simp [blank]
  sheets e he := by
    obtain rfl : e = (defaultSheet, { name := defaultSheet }) := by simpa [blank] using he
    exact Sheet.isProper_empty _
  tables t ht := by cases ht

/-- A workbook that was read from a file is proper. -/
theorem isProper_toWorkbook {f : WorkbookFile} (h : f.IsProper) (path : String) :
    (f.toWorkbook path).IsProper where
  ids := Keyed.nodup_keys_ofList _
  sheets e he := by
    obtain ⟨s, hs, rfl⟩ := List.mem_map.mp (Keyed.mem_of_mem_ofList he)
    exact Sheet.isProper_ofSnapshot (h.cells s hs)
  tables := h.tables

namespace IsProper

variable {w : Workbook}

theorem setSheet (h : w.IsProper) (id : String) {s : Sheet} (hs : s.IsProper) :
    { w with sheets := w.sheets.set id s }.IsProper where
  ids := Keyed.nodup_keys_set h.ids id s
  sheets e he := by
    rcases Keyed.mem_of_mem_set he with rfl | he
    · exact hs
    · exact h.sheets e he
  tables := h.tables

theorem after (h : w.IsProper) {x : Write} (hx : x.IsProper) : (w.after x).IsProper := by
  rcases w.after_eq x with heq | ⟨s, hs, heq⟩
  · rw [heq]
    exact h
  · rw [heq]
    refine h.setSheet x.sheet ((h.sheets _ (Keyed.mem_of_get?_eq_some hs)).putAll ?_)
    intro c hc
    obtain ⟨e, he, rfl⟩ := List.mem_map.mp hc
    exact hx.entries e he

theorem addSheet (h : w.IsProper) (id name : String) : (w.addSheet id name).IsProper := by
  unfold Workbook.addSheet
  split
  · exact h
  · exact h.setSheet id (Sheet.isProper_empty name)

theorem defineName (h : w.IsProper) (n : DefinedName) : (w.defineName n).IsProper :=
  ⟨h.ids, h.sheets, h.tables⟩

theorem addTable (h : w.IsProper) {t : Table} (ht : t.rect.InGrid) {w' : Workbook}
    (hw' : w.addTable t = .ok w') : w'.IsProper := by
  unfold Workbook.addTable at hw'
  cases hs : w.sheet t.sheet with
  | error e =>
    rw [hs] at hw'
    cases hw'
  | ok s =>
    rw [hs] at hw'
    obtain rfl := Except.ok.inj hw'
    refine ⟨h.ids, h.sheets, fun u hu => ?_⟩
    rcases List.mem_append.mp hu with hu | hu
    · exact h.tables u (List.mem_filter.mp hu).1
    · rw [List.mem_singleton.mp hu]
      exact ht

theorem withPath (h : w.IsProper) (path : Option String) : { w with path }.IsProper :=
  ⟨h.ids, h.sheets, h.tables⟩

/-- The file of a proper workbook is proper. -/
theorem ofWorkbook (h : w.IsProper) : (WorkbookFile.ofWorkbook w).IsProper where
  cells s hs c hc := by
    obtain ⟨e, he, rfl⟩ := List.mem_map.mp hs
    obtain ⟨x, hx, rfl⟩ := List.mem_map.mp hc
    obtain ⟨hp, -, hvalue⟩ := h.sheets e he x.1 x.2
      (Std.ExtTreeMap.mem_toList_iff_getElem?_eq_some.mp (List.mem_filter.mp hx).1)
    exact ⟨hp.1, hp.2, hvalue⟩
  tables := h.tables

/-- A proper workbook is the one of its file, but for where it is kept. -/
theorem toWorkbook_ofWorkbook (h : w.IsProper) (path : String) :
    (WorkbookFile.ofWorkbook w).toWorkbook path =
      { w with path := some path, originPath := none } := by
  have hsheets : (w.snapshot.sheets.map fun s => (s.id, Sheet.ofSnapshot s.withoutEmpty)) =
      w.sheets := by
    rw [snapshot, List.map_map]
    refine (List.map_congr_left fun e he => ?_).trans (List.map_id _)
    exact congrArg (Prod.mk e.1) ((h.sheets e he).ofSnapshot_snapshot e.1)
  unfold WorkbookFile.toWorkbook
  rw [show (WorkbookFile.ofWorkbook w).sheets = w.snapshot.sheets from rfl, hsheets,
    Keyed.ofList_of_nodup h.ids]
  rfl

end IsProper

/-- The record of a workbook has its sheets and shows what they do, whatever the content. -/
theorem toWorkbook_ofWorkbook_shows {b : Workbook} (hids : (Keyed.keys b.sheets).Nodup)
    (path : String) :
    ((WorkbookFile.ofWorkbook b).toWorkbook path).descriptor.sheets = b.descriptor.sheets ∧
      ∀ id q, CellEdit.ofState (((WorkbookFile.ofWorkbook b).toWorkbook path).cell id q) =
        .ofState (b.cell id q) := by
  have hsheets : ((WorkbookFile.ofWorkbook b).toWorkbook path).sheets =
      b.sheets.map fun e => (e.1, Sheet.ofSnapshot (e.2.snapshot e.1)) := by
    have hmap : ((WorkbookFile.ofWorkbook b).sheets.map fun s =>
        (s.id, Sheet.ofSnapshot s.withoutEmpty)) =
          b.sheets.map fun e => (e.1, Sheet.ofSnapshot (e.2.snapshot e.1)) := by
      rw [show (WorkbookFile.ofWorkbook b).sheets = b.snapshot.sheets from rfl, snapshot,
        List.map_map]
      refine List.map_congr_left fun e _ => ?_
      exact congrArg (fun s => (e.1, Sheet.ofSnapshot s)) (SheetSnapshot.withoutEmpty_ofCells ..)
    rw [WorkbookFile.toWorkbook, hmap]
    refine Keyed.ofList_of_nodup ?_
    simpa [Keyed.keys, Function.comp_def] using hids
  constructor
  · simp only [descriptor, hsheets, List.map_map]
    rfl
  · intro id q
    rw [cell_eq, hsheets, Keyed.get?_map fun id (s : Sheet) => Sheet.ofSnapshot (s.snapshot id),
      cell_eq]
    cases b.sheets.get? id with
    | none => rfl
    | some s =>
      simp only [Option.map_some, Option.getD_some]
      rw [Sheet.read_ofSnapshot, ← Store.lastStates_eq, Store.ofState_lastStates_snapshot]

/-- Whether no binary number occurs in any cell. -/
def HasNoDouble (w : Workbook) : Prop :=
  ∀ (id : String) (p : Position) (c : CellState),
    w.cell? id p = some c → c.value.HasNoDouble

theorem HasNoDouble.ofWorkbook {w : Workbook} (h : w.HasNoDouble) (hw : w.IsProper) :
    ∀ s ∈ (WorkbookFile.ofWorkbook w).sheets, ∀ c ∈ s.cells, c.state.value.HasNoDouble := by
  intro s hs c hc
  obtain ⟨⟨id, sheet⟩, he, rfl⟩ := List.mem_map.mp hs
  obtain ⟨⟨p, state⟩, hx, rfl⟩ := List.mem_map.mp hc
  have hstored := Std.ExtTreeMap.mem_toList_iff_getElem?_eq_some.mp (List.mem_filter.mp hx).1
  apply h id p
  rw [cell?, Keyed.get?_of_mem hw.ids he]
  exact hstored

/-- A workbook as it is after it was opened from a file. -/
def openedAt (w : Workbook) (path : String) : Workbook :=
  { w with path := some path, originPath := none }

@[simp] theorem ofWorkbook_openedAt (w : Workbook) (path : String) :
    WorkbookFile.ofWorkbook (w.openedAt path) = WorkbookFile.ofWorkbook w := rfl

end Workbook

/-! ## Stores -/

namespace Store

section Commands

variable (workbook : Option Workbook) (files : FileTree)

/-- What opening a file comes to. -/
theorem perform_openWorkbook (path : String) :
    (openWorkbook path).perform ⟨.local, workbook, none, files⟩ =
      match files.read path with
      | .error fault => (.error (.file path fault), ⟨.local, workbook, none, files⟩)
      | .ok (content, _) =>
        match WorkbookFile.ofContent? content with
        | none => (.error (.malformed path), ⟨.local, workbook, none, files⟩)
        | some f => (.ok (f.toWorkbook path).descriptor,
            ⟨.local, some (f.toWorkbook path), none, files⟩) := by
  have h : (openWorkbook path).perform ⟨.local, workbook, none, files⟩ =
      StoreM.perform (match files.read path with
        | .error fault => throw (.file path fault)
        | .ok (content, _) =>
          match WorkbookFile.ofContent? content with
          | none => throw (.malformed path)
          | some f => do
            setCurrent (f.toWorkbook path)
            return (f.toWorkbook path).descriptor) ⟨.local, workbook, none, files⟩ := rfl
  rw [h]
  cases files.read path with
  | error fault => rfl
  | ok found =>
    cases hf : WorkbookFile.ofContent? found.1 <;> simp only [hf] <;> rfl

theorem perform_writeFile (path : String) (w : Workbook) :
    (writeFile path w).perform ⟨.local, workbook, none, files⟩ =
      match (FileTree.replace path (.text (WorkbookFile.ofWorkbook w).text)).run files with
      | (.error fault, files) => (.error (.file path fault), ⟨.local, workbook, none, files⟩)
      | (.ok (), files) => (.ok (), ⟨.local, workbook, none, files⟩) := by
  unfold writeFile StoreM.perform
  generalize FileTree.replace path (.text (WorkbookFile.ofWorkbook w).text) = m
  -- nothing happens in the pause, and the store is read and written once
  refine (Activity.attempt_bind _ _ _ _).trans ?_
  refine (Activity.attempt_bind _ get _ (⟨.local, workbook, none, files⟩ : Store)).trans ?_
  refine (Activity.attempt_bind _ (set _) _ (⟨.local, workbook, none, files⟩ : Store)).trans ?_
  show Activity.attempt _ _ _ = _
  dsimp only [ExceptT.run]
  cases m files with
  | mk r t => cases r <;> rfl

/-- What saving to a path comes to. -/
theorem perform_saveWorkbook (w : Workbook) (path : Option String) :
    (saveWorkbook path).perform ⟨.local, some w, none, files⟩ =
      match path.or w.path with
      | none => (.error .noSavePath, ⟨.local, some w, none, files⟩)
      | some target =>
        match (FileTree.replace target (.text (WorkbookFile.ofWorkbook w).text)).run files with
        | (.error fault, files) => (.error (.file target fault), ⟨.local, some w, none, files⟩)
        | (.ok (), files) =>
          (.ok (), ⟨.local, some { w with path := some target }, none, files⟩) := by
  have h : (saveWorkbook path).perform ⟨.local, some w, none, files⟩ =
      StoreM.perform (match path.or w.path with
        | none => throw .noSavePath
        | some target => do
          writeFile target w
          modify fun s => { s with workbook := s.workbook.map ({ · with path := some target }) })
        ⟨.local, some w, none, files⟩ := rfl
  rw [h]
  cases path.or w.path with
  | none => rfl
  | some target =>
    dsimp only
    refine (Activity.attempt_bind _ _ _ _).trans ?_
    rw [show Activity.attempt (fun _ s => s) (writeFile target w) ⟨.local, some w, none, files⟩ =
      _ from perform_writeFile (some w) files target w]
    cases (FileTree.replace target (.text (WorkbookFile.ofWorkbook w).text)).run files with
    | mk r t => cases r <;> rfl

end Commands

/-! ## What a store can hold -/

/-- A change of the workbook of a store. -/
inductive Edit where
  | write (w : Write)
  | addSheet (id name : String)
  | defineName (n : DefinedName)
  | addTable (t : Table)

namespace Edit

def command : Edit → StoreM Unit
  | write w => apply w
  | addSheet id name => do
    let _ ← Store.addSheet id name
  | defineName n => Store.defineName n
  | addTable t => Store.addTable t

/-- An edit in which all rows, columns and values are of their size. -/
def IsProper : Edit → Prop
  | write w => w.IsProper
  | addTable t => t.rect.InGrid
  | _ => True

end Edit

/-- What can happen to a store and to the files that it reaches. -/
inductive Step (s : Store) : Store → Prop
  | create : Step s (newWorkbook.perform s).2
  | open (path : String) : Step s ((openWorkbook path).perform s).2
  | edit {e : Edit} (h : e.IsProper) : Step s (e.command.perform s).2
  | save (path : Option String) : Step s ((saveWorkbook path).perform s).2
  | files (files : FileTree) : Step s { s with files }

/-- Whether a local store can come to a state, from none of its own. -/
def Reachable (s : Store) : Prop :=
  ∃ files : FileTree, Relation.ReflTransGen Step { files } s

/-- A local store that is not watched, and whose workbook is proper. -/
structure IsProper (s : Store) : Prop where
  kind : s.kind = .local
  watch : s.watch = none
  workbook : ∀ w, s.workbook = some w → w.IsProper

namespace IsProper

variable {s : Store}

theorem edit (h : s.IsProper) {e : Edit} (he : e.IsProper) : (e.command.perform s).2.IsProper := by
  obtain ⟨kind, workbook, watch, files⟩ := s
  obtain ⟨rfl, rfl, hbook⟩ := h
  cases workbook with
  | none =>
    cases e with
    | write w =>
      obtain ⟨e, heq⟩ := exists_perform_apply_of_none w files
      rw [Edit.command, heq]
      exact ⟨rfl, rfl, nofun⟩
    | _ => exact ⟨rfl, rfl, nofun⟩
  | some w =>
    have hw := hbook w rfl
    cases e with
    | write x =>
      rw [Edit.command, (⟨rfl, rfl, rfl⟩ : Holds ⟨.local, some w, none, files⟩ w).perform_apply x]
      exact ⟨rfl, rfl, fun w' hw' => Option.some.inj hw' ▸ hw.after he⟩
    | addSheet id name =>
      exact ⟨rfl, rfl, fun w' hw' => Option.some.inj hw' ▸ hw.addSheet id name⟩
    | defineName n => exact ⟨rfl, rfl, fun w' hw' => Option.some.inj hw' ▸ hw.defineName n⟩
    | addTable t =>
      show IsProper (StoreM.perform (do setCurrent (← (w.addTable t : Except _ _)) : StoreM Unit)
        ⟨.local, some w, none, files⟩).2
      cases hadd : w.addTable t with
      | error => exact ⟨rfl, rfl, hbook⟩
      | ok w' => exact ⟨rfl, rfl, fun x hx => Option.some.inj hx ▸ hw.addTable he hadd⟩

theorem openWorkbook (h : s.IsProper) (path : String) :
    ((Store.openWorkbook path).perform s).2.IsProper := by
  obtain ⟨kind, workbook, watch, files⟩ := s
  obtain ⟨rfl, rfl, hbook⟩ := h
  rw [perform_openWorkbook]
  cases files.read path with
  | error fault => exact ⟨rfl, rfl, hbook⟩
  | ok found =>
    dsimp only
    cases hf : WorkbookFile.ofContent? found.1 with
    | none => exact ⟨rfl, rfl, hbook⟩
    | some f =>
      refine ⟨rfl, rfl, fun w hw => ?_⟩
      obtain rfl := Option.some.inj hw
      exact Workbook.isProper_toWorkbook (WorkbookFile.isProper_of_ofContent? hf) path

theorem saveWorkbook (h : s.IsProper) (path : Option String) :
    ((Store.saveWorkbook path).perform s).2.IsProper := by
  obtain ⟨kind, workbook, watch, files⟩ := s
  obtain ⟨rfl, rfl, hbook⟩ := h
  cases workbook with
  | none => exact ⟨rfl, rfl, nofun⟩
  | some w =>
    rw [perform_saveWorkbook]
    cases path.or w.path with
    | none => exact ⟨rfl, rfl, hbook⟩
    | some target =>
      dsimp only
      split
      · exact ⟨rfl, rfl, hbook⟩
      · exact ⟨rfl, rfl, fun x hx => Option.some.inj hx ▸ (hbook w rfl).withPath (some target)⟩

/-- Whatever happens to a proper store, it stays proper. -/
theorem step {s' : Store} (h : s.IsProper) (hstep : Step s s') : s'.IsProper := by
  cases hstep with
  | create =>
    obtain ⟨kind, workbook, watch, files⟩ := s
    obtain ⟨rfl, rfl, -⟩ := h
    exact ⟨rfl, rfl, fun w hw => Option.some.inj hw ▸ Workbook.isProper_blank⟩
  | «open» path => exact h.openWorkbook path
  | edit he => exact h.edit he
  | save path => exact h.saveWorkbook path
  | files files => exact ⟨h.kind, h.watch, h.workbook⟩

end IsProper

theorem Reachable.isProper {s : Store} (h : s.Reachable) : s.IsProper := by
  obtain ⟨files, h⟩ := h
  induction h with
  | refl => exact ⟨rfl, rfl, nofun⟩
  | tail _ hstep ih => exact ih.step hstep

/-! ## Saved and opened again -/

/-- A save that succeeds has replaced a file by the text of the workbook. -/
theorem exists_of_saveWorkbook {w : Workbook} {files : FileTree} {path : Option String} {s' : Store}
    (h : (saveWorkbook path).perform ⟨.local, some w, none, files⟩ = (.ok (), s')) :
    ∃ target files', path.or w.path = some target ∧
      (FileTree.replace target (.text (WorkbookFile.ofWorkbook w).text)).run files =
        (.ok (), files') ∧
      s' = ⟨.local, some { w with path := some target }, none, files'⟩ := by
  rw [perform_saveWorkbook] at h
  cases hpath : path.or w.path with
  | none =>
    rw [hpath] at h
    cases (Prod.mk.inj h).1
  | some target =>
    rw [hpath] at h
    dsimp only at h
    cases hreplace :
        (FileTree.replace target (.text (WorkbookFile.ofWorkbook w).text)).run files with
    | mk r files' =>
      rw [hreplace] at h
      cases r with
      | error fault => cases (Prod.mk.inj h).1
      | ok => exact ⟨target, files', rfl, hreplace, (Prod.mk.inj h).2.symm⟩

theorem saveWorkbook_of_replace {w : Workbook} {files files' : FileTree} {path : Option String}
    {target : String} (hpath : path.or w.path = some target)
    (h : (FileTree.replace target (.text (WorkbookFile.ofWorkbook w).text)).run files =
      (.ok (), files')) :
    (saveWorkbook path).perform ⟨.local, some w, none, files⟩ =
      (.ok (), ⟨.local, some { w with path := some target }, none, files'⟩) := by
  rw [perform_saveWorkbook, hpath]
  dsimp only
  rw [h]

/-- After a save, every local store that finds the file opens the workbook as it was: the same
sheets in the same order with the same cells, the same names and tables. It can save the workbook in
its place again, and wherever it does, the file becomes the same. -/
theorem saved_workbook_reopens {s s' : Store} {w : Workbook} {p : String} (hs : s.Reachable)
    (hw : s.workbook = some w) (hd : w.HasNoDouble)
    (hdepth : (WorkbookFile.ofWorkbook w).toJson.depth ≤ nestingLimit)
    (hsave : (saveWorkbook (some p)).perform s = (.ok (), s')) :
    ∃ content time, s'.files.read p = .ok (content, time) ∧
      ∀ t : Store, t.kind = .local → t.watch = none → t.files = s'.files →
        ∃ t', (openWorkbook p).perform t = (.ok (w.openedAt p).descriptor, t') ∧
          t'.workbook = some (w.openedAt p) ∧ t'.files = s'.files ∧
          (∀ q, q = none ∨ q = some p → ∃ u, (saveWorkbook q).perform t' = (.ok (), u)) ∧
          ∀ q u, (saveWorkbook q).perform t' = (.ok (), u) →
            ∃ time, u.files.read (q.getD p) = .ok (content, time) := by
  have hproper := hs.isProper
  obtain ⟨kind, workbook, watch, files⟩ := s
  obtain ⟨rfl, rfl, hbook⟩ := hproper
  obtain rfl : workbook = some w := hw
  have hwproper := hbook w rfl
  obtain ⟨target, files', htarget, hreplace, rfl⟩ := exists_of_saveWorkbook hsave
  obtain rfl : p = target := Option.some.inj htarget
  obtain ⟨time, hread⟩ := FileTree.read_of_replace hreplace
  refine ⟨_, time, hread, ?_⟩
  rintro ⟨kind, workbook, watch, files'⟩ rfl rfl rfl
  refine ⟨⟨.local, some (w.openedAt p), none, files'⟩, ?_, rfl, rfl, ?_, ?_⟩
  · -- the file is read, and its workbook is the one that was saved
    have hcontent := hwproper.ofWorkbook.ofContent?_text (hd.ofWorkbook hwproper) hdepth
    rw [perform_openWorkbook, hread]
    dsimp only
    rw [hcontent]
    dsimp only
    rw [hwproper.toWorkbook_ofWorkbook p]
    rfl
  · intro q hq
    obtain ⟨files'', hagain⟩ := FileTree.exists_replace_of_replace hreplace
      (.text (WorkbookFile.ofWorkbook (w.openedAt p)).text)
    refine ⟨_, saveWorkbook_of_replace ?_ hagain⟩
    rcases hq with rfl | rfl <;> rfl
  · intro q u hu
    obtain ⟨target, files'', htarget, hagain, rfl⟩ := exists_of_saveWorkbook hu
    obtain rfl : q.getD p = target := by
      cases q <;> exact Option.some.inj htarget
    exact FileTree.read_of_replace hagain

/-- A list as the content of a cell. -/
def sampleEdit : CellEdit := ⟨.list [.text "a", .int 7], some "=1"⟩

/-- A new workbook in which one cell was written. -/
def sampleWorkbook : Workbook :=
  { sheets := [(defaultSheet, ({ name := defaultSheet } : Sheet).put ⟨0, 1⟩ sampleEdit.toState)] }

theorem reachable_sample : (⟨.local, some sampleWorkbook, none, {}⟩ : Store).Reachable := by
  have hedit : (Edit.write (.point defaultSheet ⟨0, 1⟩ sampleEdit)).IsProper := by
    refine ⟨⟨by decide, by decide⟩, .list fun v hv => ?_⟩
    rcases List.mem_cons.mp hv with rfl | hv
    · exact .text _
    · obtain rfl := List.mem_singleton.mp hv
      exact .int (by decide) (by decide)
  exact ⟨{}, .tail (.tail .refl .create) (.edit hedit)⟩

theorem hasNoDouble_sampleWorkbook : sampleWorkbook.HasNoDouble := by
  intro id p c hc
  obtain ⟨s, hs, hc⟩ := Option.bind_eq_some_iff.mp hc
  obtain ⟨rfl, rfl⟩ := Prod.mk.inj (List.mem_singleton.mp (Keyed.mem_of_get?_eq_some hs))
  have hempty : sampleEdit.toState.isEmpty = false := by decide
  simp only [Sheet.put, hempty, Bool.false_eq_true, if_false, ByPosition.getElem?_insert] at hc
  split at hc
  · obtain rfl := Option.some.inj hc
    refine .list fun v hv => ?_
    rcases List.mem_cons.mp hv with rfl | hv
    · exact .text _
    · obtain rfl := List.mem_singleton.mp hv
      exact .int _
  · simp at hc

/-- A file in the directory where paths start can be made where nothing is. -/
theorem run_replace_book (content : Content) :
    (FileTree.replace "book" content).run {} =
      (.ok (), FileTree.put {} ["book"] (.file content 0)) := by
  have hparent : FileTree.parent "book" = "." := by
    rw [FileTree.parent, FileTree.ancestors, FileTree.splitOn_slash]
    decide +kernel
  have hstart : FileTree.locate {} "." = .ok [] := by
    rw [FileTree.locate_eq]
    decide +kernel
  have hmake : (FileTree.makeDirectory ".").run {} = (.ok (), {}) := by
    have hway : FileTree.ancestors "." = ["."] := by
      rw [FileTree.ancestors, FileTree.splitOn_slash]
      decide +kernel
    rw [FileTree.makeDirectory, hway]
    apply FileTree.run_ensureAll_of_isDirectory
    rw [FileTree.isDirectory, FileTree.find, hstart]
    rfl
  have hdraft : FileTree.locate {} (FileTree.draft ".") = .ok [".tmp000000"] := by
    rw [FileTree.locate_eq]
    decide +kernel
  have htake : FileTree.CanTake {} "book" ["book"] := by
    constructor
    case locate =>
      rw [FileTree.locate_eq]
      decide +kernel
    case dots =>
      rw [FileTree.endsInDots, FileTree.steps_eq]
      decide +kernel
    case slash => decide +kernel
    case node => decide +kernel
  rw [← hparent] at hmake hdraft
  exact FileTree.run_replace hmake hdraft htake content

/-- A workbook with a cell is saved, opened and saved again. -/
theorem sampleWorkbook_reopens :
    ∃ s', (saveWorkbook (some "book")).perform ⟨.local, some sampleWorkbook, none, {}⟩ =
        (.ok (), s') ∧
      ∃ content time, s'.files.read "book" = .ok (content, time) ∧
        ∀ t : Store, t.kind = .local → t.watch = none → t.files = s'.files →
          ∃ t', (openWorkbook "book").perform t =
              (.ok (sampleWorkbook.openedAt "book").descriptor, t') ∧
            t'.workbook = some (sampleWorkbook.openedAt "book") ∧ t'.files = s'.files ∧
            (∀ q, q = none ∨ q = some "book" →
              ∃ u, (saveWorkbook q).perform t' = (.ok (), u)) ∧
            ∀ q u, (saveWorkbook q).perform t' = (.ok (), u) →
              ∃ time, u.files.read (q.getD "book") = .ok (content, time) := by
  have hsave : (saveWorkbook (some "book")).perform ⟨.local, some sampleWorkbook, none, {}⟩ = _ :=
    saveWorkbook_of_replace rfl (run_replace_book _)
  have hdepth : (WorkbookFile.ofWorkbook sampleWorkbook).toJson.depth ≤ nestingLimit := by
    decide +kernel
  exact ⟨_, hsave,
    saved_workbook_reopens reachable_sample rfl hasNoDouble_sampleWorkbook hdepth hsave⟩

end Store

end SheetSync
