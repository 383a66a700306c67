import SheetSync.Proofs.Document
import SheetSync.Proofs.Session.Limits
import SheetSync.Proofs.Store.Reopen
/-!
Loading a workbook in chunks. Of a proper workbook nothing gets lost or changed on the way: sheets
have different ids and store no empty cell, and the chunks of a sheet cover what it stores. So a
document that loads the workbook has its sheets, whatever the shape of the chunks.

Main statement: `Store.loaded_in_chunks`.
-/
namespace SheetSync

/-! ## Copies of proper workbooks -/

/-- A sheet without empty cells is the sheet of its copy in chunks. -/
theorem Sheet.IsProper.ofSnapshot_chunked {s : Sheet} (h : s.IsProper) (rows cols : Nat)
    (id : String) : ofSnapshot (.ofCells id s.name (s.chunked rows cols)) = s := by
  have hcells : (ofSnapshot (.ofCells id s.name (s.chunked rows cols))).cells = s.cells := by
    apply Std.ExtTreeMap.ext_getElem?
    intro q
    rw [getElem?_cells_ofCells_chunked, read]
    cases hq : s.cells[q]? with
    | none => rfl
    | some c => simp [CellState.stored?, (h q c hq).2.1]
  obtain ⟨name, cells⟩ := s
  exact congrArg (Sheet.mk name) hcells

namespace Workbook

/-- The sheets that a document makes of the copy of a proper workbook are those of the workbook. -/
theorem IsProper.loadSheets_copy {b : Workbook} (h : b.IsProper) (rows cols : Nat) :
    Document.loadSheets (b.copy rows cols) = b.sheets := by
  have hsheet : ∀ e ∈ b.sheets,
      (e.1, Sheet.ofSnapshot (b.copyOf rows cols ⟨e.1, e.2.name⟩)) = e := by
    intro e he
    simp only [copyOf, Keyed.get?_of_mem h.ids he, Option.map_some, Option.getD_some]
    rw [(h.sheets e he).ofSnapshot_chunked]
  rw [Document.loadSheets, map_sheets_copy, (List.map_congr_left hsheet).trans (List.map_id' _),
    Keyed.ofList_of_nodup h.ids]

end Workbook

/-! ## Telling of a load -/

namespace Document

/-- What becomes of a document that tells of an event which is not a user's does not depend on the
event. -/
theorem deliver_fst_of_ne_user (answer : DocumentAction → Document → Document × List Delivery)
    {e e' : ChangeEvent} (he : e.source ≠ .user) (he' : e'.source ≠ .user)
    (ls : List (Nat × Listener)) (d : Document) :
    (deliver answer e ls d).1 = (deliver answer e' ls d).1 := by
  induction ls generalizing d with
  | nil => rfl
  | cons l ls ih =>
    obtain ⟨id, l⟩ := l
    have hreact : (react answer e l d).1 = (react answer e' l d).1 := by
      cases l with
      | forward => rfl
      | watcher label unsubscribes reaction =>
        simp only [react]
        cases hs : e.source <;> cases hs' : e'.source <;> first | rfl | contradiction
    simp only [deliver, hreact]
    exact ih _

/-- Copies that make the same sheets make the same document. -/
theorem perform_load_congr (d : Document) {s s' : Snapshot} (h : loadSheets s = loadSheets s') :
    (d.perform (.load s)).1 = (d.perform (.load s')).1 := by
  simp only [perform, performWithin, change, h]
  exact deliver_fst_of_ne_user _ (by simp) (by simp) _ _

end Document

/-! ## Loading from a store -/

namespace Store

/-- Whatever chunks within the limit a local store is read in, its workbook is read and the store
stays as it is, and a document that loads what was read becomes the same: one with the sheets, and
the cells in them, that the workbook has. -/
theorem loaded_in_chunks {s : Store} {b : Workbook} (hs : s.Reachable) (hb : s.workbook = some b) :
    b.IsInner → ∀ d : Document, ∃ loaded : Document,
      loaded.sheets = b.sheets ∧ loaded.snapshot = b.snapshot ∧
        ∀ rows cols, max rows 1 * max cols 1 ≤ rangeLimit →
          ∃ copy, (loadSnapshot b.descriptor rows cols).perform s = (.ok copy, s) ∧
            (d.perform (.load copy)).1 = loaded := by
  intro _ d
  have hproper := hs.isProper
  have hbook := hproper.workbook b hb
  have hholds : s.Holds b := ⟨hproper.kind, hproper.watch, hb⟩
  -- the copy in one chunk shape stands for all of them
  have hsheets : (d.perform (.load (b.copy 0 0))).1.sheets = b.sheets := by
    obtain ⟨hload, -, -⟩ := Document.perform_quiet (d := d) (a := .load (b.copy 0 0))
      fun e he hsource => by
        obtain rfl := Option.some.inj he
        cases hsource
    rw [hload]
    exact hbook.loadSheets_copy 0 0
  refine ⟨(d.perform (.load (b.copy 0 0))).1, hsheets, ?_, fun rows cols hchunk =>
    ⟨b.copy rows cols, ?_, ?_⟩⟩
  · rw [Document.snapshot, hsheets]
    rfl
  · have hload : Session.Commands (fun _ s (_ : Unit) t _ => t = s)
        (loadSnapshot b.descriptor rows cols) { store := s } () fun r t _ =>
          r = .ok (b.copy rows cols) ∧ t.store = s :=
      Session.commands_loadSnapshot hholds fun r hr => ⟨hr.eq_ok hchunk, rfl⟩
    obtain ⟨hr, ht⟩ := Session.commands_alone.mp hload
    exact Prod.ext hr ht
  · exact d.perform_load_congr
      ((hbook.loadSheets_copy rows cols).trans (hbook.loadSheets_copy 0 0).symm)

theorem isInner_sampleWorkbook : sampleWorkbook.IsInner := by
  intro id p c hc
  obtain ⟨s, hs, hc⟩ := Option.bind_eq_some_iff.mp hc
  obtain ⟨rfl, rfl⟩ := Prod.mk.inj (List.mem_singleton.mp (Keyed.mem_of_get?_eq_some hs))
  rw [Sheet.getElem?_cells_put] at hc
  split at hc
  · next hp =>
    rw [hp]
    decide
  · simp at hc

theorem loaded_in_chunks_sample :
    (⟨.local, some sampleWorkbook, none, {}⟩ : Store).Reachable ∧ sampleWorkbook.IsInner ∧
      ∀ d : Document, ∃ loaded : Document,
        loaded.sheets = sampleWorkbook.sheets ∧ loaded.snapshot = sampleWorkbook.snapshot ∧
          ∀ rows cols, max rows 1 * max cols 1 ≤ rangeLimit →
            ∃ copy, (loadSnapshot sampleWorkbook.descriptor rows cols).perform
                ⟨.local, some sampleWorkbook, none, {}⟩ =
                  (.ok copy, ⟨.local, some sampleWorkbook, none, {}⟩) ∧
              (d.perform (.load copy)).1 = loaded :=
  ⟨reachable_sample, isInner_sampleWorkbook,
    loaded_in_chunks reachable_sample rfl isInner_sampleWorkbook⟩

end Store

end SheetSync
