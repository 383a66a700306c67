import SheetSync.Proofs.Store.Actions
/-!
What a local store reports after any sequence of commands. Its readers show for each cell the state
that the last successful edit of the cell left, from the workbook that was last opened or made; a
command that fails has done nothing to the workbook.

The reference is a history, the last command first, that is searched for the edit that counts. It
knows neither maps nor sheets that are written in place. Main statement: `Store.reports_last_edits`.
-/
namespace SheetSync

/-! ## What covers a cell -/

namespace Write

/-- The edit that a write makes of a cell, if it covers the cell. -/
def edit? : Write → String → Position → Option CellEdit
  | range sheet rect values, id, p => if sheet = id then rect.entry? values p else none
  | point sheet q e, id, p => if sheet = id ∧ q = p then some e else none

theorem edit?_of_ne {w : Write} {id : String} (h : w.sheet ≠ id) (p : Position) :
    w.edit? id p = none := by
  cases w with
  | range sheet rect values => exact if_neg h
  | point sheet q e => exact if_neg fun hsheet => h hsheet.1

theorem getElem?_ofEntries_entries {w : Write} {limit : Nat} (h : w.Fits limit) (p : Position) :
    (ByPosition.ofEntries w.entries)[p]? = w.edit? w.sheet p := by
  cases w with
  | range sheet rect values =>
    obtain ⟨-, -, hrows, hcols⟩ := h
    rw [edit?, Write.sheet, if_pos rfl]
    exact ByPosition.getElem?_ofEntries_entries hrows hcols p
  | point sheet q e =>
    rw [ByPosition.getElem?_ofEntries_eq, entries, edit?, Write.sheet]
    by_cases hq : q = p
    · simp [List.findRev?, hq]
    · simp [List.findRev?, hq]

end Write

namespace WorkbookFile

/-- What a file has for a cell: of the sheets of an id, and of the cells of a position that are not
empty, the last one counts. -/
def cell? (f : WorkbookFile) (id : String) (p : Position) : Option CellState :=
  (f.sheets.findRev? (·.id = id)).bind fun s =>
    (s.cells.findRev? fun c => c.position = p ∧ !c.state.isEmpty).map (·.state)

theorem get?_sheets_toWorkbook (f : WorkbookFile) (path id : String) :
    (f.toWorkbook path).sheets.get? id =
      (f.sheets.findRev? (·.id = id)).map fun s => .ofSnapshot s.withoutEmpty :=
  Keyed.get?_ofList_map SheetSnapshot.id (fun s => Sheet.ofSnapshot s.withoutEmpty) f.sheets id

theorem cell?_toWorkbook (f : WorkbookFile) (path id : String) (p : Position) :
    (f.toWorkbook path).cell? id p = f.cell? id p := by
  rw [Workbook.cell?, get?_sheets_toWorkbook, cell?, Option.bind_map]
  congr 1
  funext s
  dsimp only [Function.comp_def]
  rw [Sheet.getElem?_cells_ofSnapshot, ByPosition.getElem?_ofEntries_items]
  simp only [SheetSnapshot.withoutEmpty, List.findRev?_eq_find?_reverse, ← List.filter_reverse,
    List.find?_filter]
  congr 2
  funext c
  simp [and_comm]

theorem isEmpty_of_cell? {f : WorkbookFile} {id : String} {p : Position} {c : CellState}
    (h : f.cell? id p = some c) : c.isEmpty = false := by
  obtain ⟨sheet, -, hcell⟩ := Option.bind_eq_some_iff.mp h
  obtain ⟨found, hfound, rfl⟩ := Option.map_eq_some_iff.mp hcell
  rw [List.findRev?_eq_find?_reverse] at hfound
  have hholds := List.find?_some hfound
  simp only [decide_eq_true_eq, Bool.not_eq_true'] at hholds
  exact hholds.2

end WorkbookFile

namespace Workbook

/-- A write that a workbook takes sets the cells that it covers and no others. -/
theorem cell?_after {b : Workbook} {w : Write} (hfits : w.Fits rangeLimit)
    (hsheet : (b.sheets.get? w.sheet).isSome) (id : String) (p : Position) :
    (b.after w).cell? id p =
      match w.edit? id p with
      | some e => e.toState.stored?
      | none => b.cell? id p := by
  rw [cell?, cell?, get?_sheets_after hfits]
  by_cases hid : id = w.sheet
  · obtain ⟨s, hs⟩ := Option.isSome_iff_exists.mp hsheet
    subst hid
    simp only [hs, Option.map_some, if_true, Option.bind_some, Write.onto]
    rw [Sheet.getElem?_cells_putAll, ByPosition.getElem?_ofEntries_map,
      Write.getElem?_ofEntries_entries hfits]
    cases w.edit? w.sheet p <;> rfl
  · rw [Write.edit?_of_ne (Ne.symm hid)]
    simp [hid]

/-- A table changes one sheet, and nothing outside of its range there. -/
theorem after_range (b : Workbook) (id : String) (rect : Rect) (values : List (List CellEdit)) :
    (∀ other ≠ id, (b.after (.range id rect values)).sheets.get? other = b.sheets.get? other) ∧
      ∀ p, rect.contains p = false →
        (b.after (.range id rect values)).cell? id p = b.cell? id p := by
  by_cases hok : (b.receive (.range id rect values)).isOk
  · obtain ⟨hfits, hsheet⟩ := (b.isOk_receive _).mp hok
    constructor
    · intro other hother
      rw [get?_sheets_after hfits]
      simp [Write.sheet, hother]
    · intro p hp
      rw [cell?_after hfits hsheet, Write.edit?, if_pos rfl, Rect.entry?, hp]
      rfl
  · rw [after_of_refused (by simpa using hok)]
    exact ⟨fun _ _ => rfl, fun _ _ => rfl⟩

theorem get?_sheets_addSheet (b : Workbook) (id name other : String) :
    (b.addSheet id name).sheets.get? other =
      (b.sheets.get? other).or (if other = id then some { name } else none) := by
  unfold addSheet
  split
  · next h =>
    by_cases hid : other = id
    · obtain ⟨s, hs⟩ := Option.isSome_iff_exists.mp h
      rw [hid, hs, Option.some_or]
    · rw [if_neg hid, Option.or_none]
  · next h =>
    rw [Keyed.get?_set]
    by_cases hid : other = id
    · rw [Keyed.has, Option.not_isSome_iff_eq_none] at h
      rw [if_pos hid, if_pos hid, hid, h, Option.none_or]
    · rw [if_neg hid, if_neg hid, Option.or_none]

theorem cell?_addSheet (b : Workbook) (id name other : String) (p : Position) :
    (b.addSheet id name).cell? other p = b.cell? other p := by
  rw [cell?, cell?, get?_sheets_addSheet]
  cases b.sheets.get? other with
  | some s => rfl
  | none =>
    -- a new sheet has no cells
    by_cases hid : other = id
    · simp [hid]
    · simp [hid]

end Workbook

/-! ## What sheets show -/

namespace Sheet

theorem usedRange?_eq_none_iff {s : Sheet} :
    s.usedRange? = none ↔ ∀ p : Position, s.cells[p]? = none := by
  rw [usedRange?, Rect.around?_eq_none, List.eq_nil_iff_forall_not_mem]
  refine forall_congr' fun p => ?_
  rw [Std.ExtTreeMap.mem_keys, Std.ExtTreeMap.mem_iff_isSome_getElem?,
    Option.not_isSome_iff_eq_none]

theorem isAround_usedRange? {s : Sheet} {rect : Rect} (h : s.usedRange? = some rect) :
    rect.IsAround fun p : Position => s.cells[p]?.isSome := by
  apply (Rect.isAround_of_around? h).congr
  intro p
  rw [Std.ExtTreeMap.mem_keys, Std.ExtTreeMap.mem_iff_isSome_getElem?]

end Sheet

namespace Store

/-! ## Histories -/

/-- A command that was given to a store, the files that it found, and whether it succeeded. -/
structure Entry where
  action : Action
  files : FileTree
  done : Bool

/-- What a sheet stores at a position after some commands, the last one first: what the last edit
that succeeded and covers the cell left there, starting from the last workbook. -/
def stored? : List Entry → String → Position → Option CellState
  | [], _, _ => none
  | ⟨_, _, false⟩ :: older, id, p => stored? older id p
  | ⟨.create, _, true⟩ :: _, _, _ => none
  | ⟨.open path, files, true⟩ :: _, id, p => (files.workbook? path).bind (·.cell? id p)
  | ⟨.edit (.write w), _, true⟩ :: older, id, p =>
    match w.edit? id p with
    | some e => e.toState.stored?
    | none => stored? older id p
  | ⟨_, _, true⟩ :: older, id, p => stored? older id p

/-- Whether there is a sheet after some commands, the last one first. -/
def HasSheet : List Entry → String → Prop
  | [], _ => False
  | ⟨_, _, false⟩ :: older, id => HasSheet older id
  | ⟨.create, _, true⟩ :: _, id => id = defaultSheet
  | ⟨.open path, files, true⟩ :: _, id =>
    ∃ f, files.workbook? path = some f ∧ ∃ sheet ∈ f.sheets, sheet.id = id
  | ⟨.edit (.addSheet added _), _, true⟩ :: older, id => id = added ∨ HasSheet older id
  | ⟨_, _, true⟩ :: older, id => HasSheet older id

section

variable {a : Action} {files : FileTree} {older : List Entry} {id : String} {p : Position}

theorem stored?_of_sparesSheets (h : a.sparesSheets) :
    stored? (⟨a, files, true⟩ :: older) id p = stored? older id p := by
  cases a with
  | create => cases h
  | «open» => cases h
  | edit e => cases e <;> first | rfl | cases h
  | _ => rfl

theorem hasSheet_of_sparesSheets (h : a.sparesSheets) :
    HasSheet (⟨a, files, true⟩ :: older) id ↔ HasSheet older id := by
  cases a with
  | create => cases h
  | «open» => cases h
  | edit e => cases e <;> first | rfl | cases h
  | _ => rfl

theorem stored?_of_refused :
    stored? (⟨a, files, false⟩ :: older) id p = stored? older id p := by
  rw [stored?]

theorem hasSheet_of_refused :
    HasSheet (⟨a, files, false⟩ :: older) id ↔ HasSheet older id := by
  rw [HasSheet]

/-- No cell is left with an empty state. -/
theorem isEmpty_of_stored? {c : CellState} {history : List Entry}
    (h : stored? history id p = some c) : c.isEmpty = false := by
  induction history with
  | nil => cases h
  | cons e older ih =>
    obtain ⟨a, files, done⟩ := e
    cases done with
    | false =>
      rw [stored?_of_refused] at h
      exact ih h
    | true =>
      cases a with
      | create => cases h
      | «open» path =>
        obtain ⟨f, -, hf⟩ := Option.bind_eq_some_iff.mp h
        exact WorkbookFile.isEmpty_of_cell? hf
      | edit e =>
        cases e with
        | write w =>
          rw [stored?] at h
          split at h
          · exact CellState.isEmpty_of_stored? h
          · exact ih h
        | _ => exact ih h
      | _ => exact ih h

end

/-- Whether the sheets and cells of a workbook are those of a history. -/
structure Shows (workbook : Option Workbook) (history : List Entry) : Prop where
  ids : ∀ b, workbook = some b → (Keyed.keys b.sheets).Nodup
  sheets : ∀ id, (workbook.bind (·.sheets.get? id)).isSome ↔ HasSheet history id
  cells : ∀ id p, workbook.bind (·.cell? id p) = stored? history id p

namespace Shows

variable {workbook workbook' : Option Workbook} {history : List Entry} {files : FileTree}
  {a : Action}

theorem create : Shows (some .blank) (⟨.create, files, true⟩ :: history) where
  ids b hb := by
    obtain rfl := Option.some.inj hb
    exact Workbook.isProper_blank.ids
  sheets id := by
    by_cases hid : id = defaultSheet
    · simp [Workbook.blank, HasSheet, hid, Keyed.get?_cons]
    · simp [Workbook.blank, HasSheet, hid, Keyed.get?_cons]
  cells id p := by
    by_cases hid : id = defaultSheet
    · simp [Workbook.blank, Workbook.cell?, stored?, hid, Keyed.get?_cons]
    · simp [Workbook.blank, Workbook.cell?, stored?, hid, Keyed.get?_cons]

theorem opened {path : String} {f : WorkbookFile} (hf : files.workbook? path = some f) :
    Shows (some (f.toWorkbook path)) (⟨.open path, files, true⟩ :: history) where
  ids b hb := by
    obtain rfl := Option.some.inj hb
    exact Keyed.nodup_keys_ofList _
  sheets id := by
    simp [HasSheet, hf, WorkbookFile.get?_sheets_toWorkbook]
  cells id p := by
    rw [stored?, hf]
    exact f.cell?_toWorkbook path id p

theorem write {b : Workbook} (h : Shows (some b) history) {w : Write} (hfits : w.Fits rangeLimit)
    (hsheet : (b.sheets.get? w.sheet).isSome) :
    Shows (some (b.after w)) (⟨.edit (.write w), files, true⟩ :: history) where
  ids b' hb' := by
    obtain rfl := Option.some.inj hb'
    rw [(b.sameFrame_after w).keys]
    exact h.ids b rfl
  sheets id := by
    show _ ↔ HasSheet history id
    rw [← h.sheets id]
    exact Bool.coe_iff_coe.mpr ((b.sameFrame_after w).isSome_get?_eq id)
  cells id p := by
    rw [stored?, ← h.cells id p]
    exact Workbook.cell?_after hfits hsheet id p

theorem addSheet {b : Workbook} (h : Shows (some b) history) (id name : String) :
    Shows (some (b.addSheet id name)) (⟨.edit (.addSheet id name), files, true⟩ :: history) where
  ids b' hb' := by
    obtain rfl := Option.some.inj hb'
    unfold Workbook.addSheet
    split
    · exact h.ids b rfl
    · exact Keyed.nodup_keys_set (h.ids b rfl) id _
  sheets other := by
    rw [HasSheet, ← h.sheets other]
    simp only [Option.bind_some, Workbook.get?_sheets_addSheet, Option.isSome_or]
    by_cases hid : other = id
    · simp [hid]
    · simp [hid]
  cells other p := by
    show _ = stored? history other p
    rw [← h.cells other p]
    exact b.cell?_addSheet id name other p

theorem other (h : Shows workbook history) (ha : a.sparesSheets)
    (hsame : workbook'.map (·.sheets) = workbook.map (·.sheets)) :
    Shows workbook' (⟨a, files, true⟩ :: history) where
  ids b' hb' := by
    rw [hb'] at hsame
    obtain ⟨b, hb, heq⟩ := Option.map_eq_some_iff.mp hsame.symm
    rw [show b'.sheets = b.sheets from heq.symm]
    exact h.ids b hb
  sheets id := by
    have hget := congrArg (Option.bind · (Keyed.get? id)) hsame
    simp only [Option.bind_map, Function.comp_def] at hget
    rw [hasSheet_of_sparesSheets ha, ← h.sheets id, hget]
  cells id p := by
    have hget := congrArg (Option.bind · (Keyed.get? id)) hsame
    simp only [Option.bind_map, Function.comp_def] at hget
    rw [stored?_of_sparesSheets ha, ← h.cells id p]
    simp only [Workbook.cell?, ← Option.bind_assoc, hget]

theorem leaves (h : Shows workbook history) (hleaves : a.Leaves workbook files workbook') :
    Shows workbook' (⟨a, files, true⟩ :: history) := by
  cases hleaves with
  | create => exact create
  | «open» hf => exact opened hf
  | write hbook hfits hsheet => exact (hbook ▸ h).write hfits hsheet
  | addSheet hbook => exact (hbook ▸ h).addSheet ..
  | other ha hsame => exact h.other ha hsame

theorem refused (h : Shows workbook history) :
    Shows workbook (⟨a, files, false⟩ :: history) where
  ids := h.ids
  sheets id := (h.sheets id).trans hasSheet_of_refused.symm
  cells id p := (h.cells id p).trans stored?_of_refused.symm

theorem exists_there (h : Shows workbook history) {id : String} (hid : HasSheet history id) :
    ∃ s, there workbook id = .ok s ∧ ∀ p, s.cells[p]? = stored? history id p := by
  obtain ⟨s, hs⟩ := Option.isSome_iff_exists.mp ((h.sheets id).mpr hid)
  obtain ⟨b, rfl, hb⟩ := Option.bind_eq_some_iff.mp hs
  refine ⟨s, ?_, fun p => ?_⟩
  · rw [there, Workbook.sheet, hb]
  · rw [← h.cells id p]
    show _ = (b.sheets.get? id).bind _
    rw [hb]
    rfl

theorem exists_not_there (h : Shows workbook history) {id : String} (hid : ¬ HasSheet history id) :
    ∃ e, there workbook id = .error e := by
  rw [← h.sheets id, Option.not_isSome_iff_eq_none] at hid
  cases workbook with
  | none => exact ⟨_, rfl⟩
  | some b =>
    have hb : b.sheets.get? id = none := hid
    refine ⟨.sheetNotFound id, ?_⟩
    rw [there, Workbook.sheet, hb]

/-- The copy of a workbook that shows a history. -/
theorem snapshot {b : Workbook} (h : Shows (some b) history) :
    (b.snapshot.sheets.map (·.id)).Nodup ∧
      (∀ id, (∃ sheet ∈ b.snapshot.sheets, sheet.id = id) ↔ HasSheet history id) ∧
      ∀ sheet ∈ b.snapshot.sheets,
        sheet.cells.Pairwise (fun c d => compare c.position d.position = .lt) ∧
        ∀ c, c ∈ sheet.cells ↔ stored? history sheet.id c.position = some c.state := by
  have hids : b.snapshot.sheets.map (·.id) = Keyed.keys b.sheets := by
    rw [Workbook.snapshot, List.map_map]
    rfl
  refine ⟨?_, fun id => ?_, fun sheet hsheet => ?_⟩
  · rw [hids]
    exact h.ids b rfl
  · rw [← h.sheets id, Option.bind_some, ← Option.ne_none_iff_isSome, ne_eq,
      Keyed.get?_eq_none_iff, not_not, ← hids, List.mem_map]
  · obtain ⟨⟨id, s⟩, he, rfl⟩ := List.mem_map.mp hsheet
    refine ⟨s.pairwise_cells_snapshot id, fun c => ?_⟩
    have hcell : s.cells[c.position]? = stored? history id c.position := by
      rw [← h.cells id, Option.bind_some, Workbook.cell?, Keyed.get?_of_mem (h.ids b rfl) he]
      rfl
    rw [Sheet.mem_cells_snapshot, hcell]
    show _ ↔ stored? history id c.position = some c.state
    rw [and_iff_left_of_imp]
    intro hc
    exact isEmpty_of_stored? hc

end Shows

/-- A local store and the commands that it was given, the last one first. -/
structure Journal where
  store : Store
  entries : List Entry := []

namespace Journal

def act (j : Journal) (a : Action) : Journal where
  store := (a.command.perform j.store).2
  entries := ⟨a, j.store.files, (a.command.perform j.store).1.isOk⟩ :: j.entries

/-- The journal of some commands that are given to a new store. -/
def ofActions (files : FileTree) (actions : List Action) : Journal :=
  actions.foldl act { store := { files } }

/-- Whether the journal is one of a local store that is not watched, and of its workbook. -/
structure Agrees (j : Journal) : Prop where
  kind : j.store.kind = .local
  watch : j.store.watch = none
  shows : Shows j.store.workbook j.entries

namespace Agrees

variable {j : Journal}

theorem act (h : j.Agrees) (a : Action) : (j.act a).Agrees := by
  obtain ⟨⟨kind, workbook, watch, files⟩, entries⟩ := j
  obtain ⟨rfl, rfl, hshows⟩ := h
  obtain ⟨r, workbook', files', hperform, hleaves, hundone⟩ : a.HasOutcome workbook files :=
    hasOutcome a
  rw [Journal.act, hperform]
  refine ⟨rfl, rfl, ?_⟩
  cases r with
  | error e =>
    obtain rfl := hundone rfl
    exact Shows.refused hshows
  | ok => exact Shows.leaves hshows (hleaves rfl)

theorem ofActions (files : FileTree) (actions : List Action) :
    (Journal.ofActions files actions).Agrees := by
  induction actions using List.reverseRecOn with
  | nil => exact ⟨rfl, rfl, nofun, fun id => by simp [Journal.ofActions, HasSheet], fun _ _ => rfl⟩
  | append_singleton actions a ih =>
    rw [Journal.ofActions, List.foldl_concat]
    exact ih.act a

end Agrees

/-- Whether a store answers every question about sheets and cells by the history of its journal,
and carries out every command on them or leaves them alone. -/
structure Reports (j : Journal) : Prop where
  cell : ∀ id p, j.store.workbook.bind (·.cell? id p) = stored? j.entries id p
  nonempty : ∀ id p c, j.store.workbook.bind (·.cell? id p) = some c → c.isEmpty = false
  /-- A range is read as the last edits left it, empty where nothing is stored. -/
  range : ∀ id rect, rect.isValid → rect.area ≤ rangeLimit → HasSheet j.entries id →
    (getRange id rect).perform j.store =
      (.ok (rect.grid fun p => (stored? j.entries id p).getD .empty), j.store)
  noRange : ∀ id rect, ¬ (rect.isValid ∧ rect.area ≤ rangeLimit ∧ HasSheet j.entries id) →
    ∃ e, (getRange id rect).perform j.store = (.error e, j.store)
  /-- The copy of the workbook has all sheets and all their cells, each of them once. -/
  copy : ∀ copy, j.store.workbook.map (·.snapshot) = some copy →
    (copy.sheets.map (·.id)).Nodup ∧
      (∀ id, (∃ sheet ∈ copy.sheets, sheet.id = id) ↔ HasSheet j.entries id) ∧
      ∀ sheet ∈ copy.sheets,
        sheet.cells.Pairwise (fun c d => compare c.position d.position = .lt) ∧
        ∀ c, c ∈ sheet.cells ↔ stored? j.entries sheet.id c.position = some c.state
  /-- The used range is the smallest one around all stored cells, if there are any. -/
  used : ∀ id, HasSheet j.entries id → ∃ used,
    (usedRange? id).perform j.store = (.ok used, j.store) ∧
    (used = none ↔ ∀ p, stored? j.entries id p = none) ∧
    ∀ rect, used = some rect → rect.IsAround fun p => (stored? j.entries id p).isSome
  notUsed : ∀ id, ¬ HasSheet j.entries id →
    ∃ e, (usedRange? id).perform j.store = (.error e, j.store)
  /-- A write succeeds if it fits its range and its sheet is there, and only then. -/
  written : ∀ w, ((apply w).perform j.store).1.isOk ↔ w.Fits rangeLimit ∧ HasSheet j.entries w.sheet
  refused : ∀ a : Action, (a.command.perform j.store).1.isOk = false →
    (a.command.perform j.store).2.workbook = j.store.workbook
  /-- A table changes nothing but the cells of its range. -/
  elsewhere : ∀ id rect values,
    (∀ other ≠ id, ((setRange id rect values).perform j.store).2.workbook.bind
      (·.sheets.get? other) = j.store.workbook.bind (·.sheets.get? other)) ∧
    ∀ p, rect.contains p = false → ((setRange id rect values).perform j.store).2.workbook.bind
      (·.cell? id p) = j.store.workbook.bind (·.cell? id p)

namespace Agrees

variable {j : Journal}

theorem undone (h : j.Agrees) {a : Action} (hfails : (a.command.perform j.store).1.isOk = false) :
    (a.command.perform j.store).2.workbook = j.store.workbook := by
  obtain ⟨⟨kind, workbook, watch, files⟩, entries⟩ := j
  obtain ⟨rfl, rfl, -⟩ := h
  obtain ⟨r, workbook', files', hperform, -, hundone⟩ : a.HasOutcome workbook files := hasOutcome a
  rw [hperform] at hfails ⊢
  exact hundone hfails

theorem isOk_apply (h : j.Agrees) (w : Write) :
    ((apply w).perform j.store).1.isOk ↔ w.Fits rangeLimit ∧ HasSheet j.entries w.sheet := by
  obtain ⟨⟨kind, workbook, watch, files⟩, entries⟩ := j
  obtain ⟨rfl, rfl, hshows⟩ := h
  show _ ↔ w.Fits rangeLimit ∧ HasSheet entries w.sheet
  rw [← hshows.sheets w.sheet]
  cases workbook with
  | none =>
    obtain ⟨e, heq⟩ := exists_perform_apply_of_none w files
    rw [heq]
    simp [Except.isOk, Except.toBool]
  | some b =>
    have hbook : Holds ⟨.local, some b, none, files⟩ b := ⟨rfl, rfl, rfl⟩
    rw [hbook.perform_apply w, isOk_map]
    exact b.isOk_receive w

theorem elsewhere (h : j.Agrees) (id : String) (rect : Rect) (values : List (List CellEdit)) :
    (∀ other ≠ id, ((setRange id rect values).perform j.store).2.workbook.bind
      (·.sheets.get? other) = j.store.workbook.bind (·.sheets.get? other)) ∧
    ∀ p, rect.contains p = false → ((setRange id rect values).perform j.store).2.workbook.bind
      (·.cell? id p) = j.store.workbook.bind (·.cell? id p) := by
  obtain ⟨⟨kind, workbook, watch, files⟩, entries⟩ := j
  obtain ⟨rfl, rfl, -⟩ := h
  show (∀ other ≠ id, ((apply (.range id rect values)).perform _).2.workbook.bind _ = _) ∧
    ∀ p, _ → ((apply (.range id rect values)).perform _).2.workbook.bind _ = _
  cases workbook with
  | none =>
    obtain ⟨e, heq⟩ := exists_perform_apply_of_none (.range id rect values) files
    rw [heq]
    exact ⟨fun _ _ => rfl, fun _ _ => rfl⟩
  | some b =>
    have hbook : Holds ⟨.local, some b, none, files⟩ b := ⟨rfl, rfl, rfl⟩
    rw [hbook.perform_apply]
    exact b.after_range id rect values

theorem range (h : j.Agrees) {id : String} {rect : Rect} (hvalid : rect.isValid)
    (harea : rect.area ≤ rangeLimit) (hid : HasSheet j.entries id) :
    (getRange id rect).perform j.store =
      (.ok (rect.grid fun p => (stored? j.entries id p).getD .empty), j.store) := by
  obtain ⟨⟨kind, workbook, watch, files⟩, entries⟩ := j
  obtain ⟨rfl, rfl, hshows⟩ := h
  obtain ⟨s, hthere, hcells⟩ := hshows.exists_there hid
  have hread : s.read = fun p => (stored? entries id p).getD .empty := by
    funext p
    rw [Sheet.read, hcells]
  rw [perform_getRange, Workbook.checkRange_eq_ok_iff.mpr ⟨hvalid, harea⟩, hthere, ← hread]
  rfl

theorem noRange (h : j.Agrees) {id : String} {rect : Rect}
    (hnot : ¬ (rect.isValid ∧ rect.area ≤ rangeLimit ∧ HasSheet j.entries id)) :
    ∃ e, (getRange id rect).perform j.store = (.error e, j.store) := by
  obtain ⟨⟨kind, workbook, watch, files⟩, entries⟩ := j
  obtain ⟨rfl, rfl, hshows⟩ := h
  rw [perform_getRange]
  cases hcheck : checkRange rect with
  | error e => exact ⟨e, rfl⟩
  | ok =>
    obtain ⟨hvalid, harea⟩ := Workbook.checkRange_eq_ok_iff.mp hcheck
    obtain ⟨e, hthere⟩ := hshows.exists_not_there fun hid => hnot ⟨hvalid, harea, hid⟩
    rw [hthere]
    exact ⟨e, rfl⟩

theorem used (h : j.Agrees) {id : String} (hid : HasSheet j.entries id) :
    ∃ used, (usedRange? id).perform j.store = (.ok used, j.store) ∧
      (used = none ↔ ∀ p, stored? j.entries id p = none) ∧
      ∀ rect, used = some rect → rect.IsAround fun p => (stored? j.entries id p).isSome := by
  obtain ⟨⟨kind, workbook, watch, files⟩, entries⟩ := j
  obtain ⟨rfl, rfl, hshows⟩ := h
  obtain ⟨s, hthere, hcells⟩ := hshows.exists_there hid
  refine ⟨s.usedRange?, ?_, ?_, fun rect hrect => ?_⟩
  · rw [perform_usedRange?, hthere]
    rfl
  · rw [Sheet.usedRange?_eq_none_iff]
    exact forall_congr' fun p => by rw [hcells]
  · apply (Sheet.isAround_usedRange? hrect).congr
    intro p
    rw [hcells]

theorem notUsed (h : j.Agrees) {id : String} (hid : ¬ HasSheet j.entries id) :
    ∃ e, (usedRange? id).perform j.store = (.error e, j.store) := by
  obtain ⟨⟨kind, workbook, watch, files⟩, entries⟩ := j
  obtain ⟨rfl, rfl, hshows⟩ := h
  obtain ⟨e, hthere⟩ := hshows.exists_not_there hid
  rw [perform_usedRange?, hthere]
  exact ⟨e, rfl⟩

theorem reports (h : j.Agrees) : j.Reports where
  cell := h.shows.cells
  nonempty id p c hc := isEmpty_of_stored? (h.shows.cells id p ▸ hc)
  range _ _ := h.range
  noRange _ _ := h.noRange
  copy copy hcopy := by
    obtain ⟨b, hb, rfl⟩ := Option.map_eq_some_iff.mp hcopy
    exact (hb ▸ h.shows : Shows (some b) j.entries).snapshot
  used _ := h.used
  notUsed _ := h.notUsed
  written := h.isOk_apply
  refused _ := h.undone
  elsewhere := h.elsewhere

end Agrees

end Journal

/-- Whatever commands a new local store is given, it reports what the last of them left, and a
command that fails leaves the workbook as it was. -/
theorem reports_last_edits (files : FileTree) (actions : List Action) :
    (Journal.ofActions files actions).Reports := (Journal.Agrees.ofActions files actions).reports

/-- A table, a cell of it cleared, and two writes that are refused: one of a sheet that is not
there, one that does not have the shape of its range. -/
def clearingActions : List Action :=
  [.create, .edit (.write (.range defaultSheet ⟨0, 0, 0, 1⟩ [[⟨.int 1, none⟩, ⟨.int 2, none⟩]])),
    .edit (.write (.point defaultSheet ⟨0, 0⟩ .clear)),
    .edit (.write (.point "Other" ⟨0, 1⟩ .clear)),
    .edit (.write (.range defaultSheet ⟨0, 0, 0, 1⟩ [[.clear]]))]

example : (Journal.ofActions {} clearingActions).entries.map (·.done) =
      [false, false, true, true, true] ∧
    [0, 1].map (fun col =>
      stored? (Journal.ofActions {} clearingActions).entries defaultSheet ⟨0, col⟩) =
      [none, some (.ofValue (.int 2))] ∧
    ((usedRange? defaultSheet).perform (Journal.ofActions {} clearingActions).store).1.toOption =
      some (some ⟨0, 1, 0, 1⟩) := by
  decide +kernel

end Store
end SheetSync
