import SheetSync.Proofs.Document.Order
/-!
What an edit of a document tells. The change that is told has one delta for each cell of the edit,
with what the cell held just before it and what it was set to. A sheet keeps no empty cell, so what
is told and what is held can differ in form where a cell is empty, but in nothing else: setting the
cells back from the last delta to the first, in one edit or in one for each, leaves every cell as it
was, `stored_read_reverted`.

Main statement: `Document.edit_exact_and_reversible`.
-/
namespace SheetSync

namespace CellDelta

/-- What is told of a cell that is set, and that held something before. -/
def ofEdit (sheet : String) (c : Position × CellState) (before : CellState) : CellDelta :=
  { sheet, row := c.1.row, col := c.1.col, before, after := c.2 }

/-- The cells as they were before some changes, from the last change to the first. -/
def reverted (deltas : List CellDelta) : List (Position × CellState) :=
  deltas.reverse.map fun δ => (⟨δ.row.toNat, δ.col.toNat⟩, δ.before)

theorem reverted_cons (sheet : String) (c : Position × CellState) (before : CellState)
    (deltas : List CellDelta) :
    reverted (ofEdit sheet c before :: deltas) = reverted deltas ++ [(c.1, before)] := by
  simp [reverted, ofEdit]

end CellDelta

namespace Document

/-! ## Cells of a sheet -/

@[simp] theorem length_setCells (id : String) (s : Sheet) (cells : List (Position × CellState)) :
    (setCells id s cells).2.length = cells.length := by
  induction cells generalizing s with
  | nil => rfl
  | cons c cells ih => exact congrArg (· + 1) (ih _)

/-- A delta tells what the cell held when the cells before it were set. -/
theorem getElem?_setCells (id : String) (s : Sheet) (cells : List (Position × CellState))
    (i : Nat) : (setCells id s cells).2[i]? = cells[i]?.map fun c =>
      .ofEdit id c ((setCells id s (cells.take i)).1.read c.1) := by
  induction cells generalizing s i with
  | nil => rfl
  | cons c cells ih =>
    cases i with
    | zero => rfl
    | succ i => exact ih _ i

/-- Setting cells and then setting them back leaves each as it was. -/
theorem stored_read_reverted (id : String) (s : Sheet) (cells : List (Position × CellState))
    (q : Position) :
    (((setCells id s cells).1.putAll (CellDelta.reverted (setCells id s cells).2)).read q).stored? =
      (s.read q).stored? := by
  induction cells generalizing s with
  | nil => rfl
  | cons c cells ih =>
    -- the first cell is set back last
    have hreverted : CellDelta.reverted (setCells id s (c :: cells)).2 =
        CellDelta.reverted (setCells id (s.put c.1 c.2) cells).2 ++ [(c.1, s.read c.1)] :=
      CellDelta.reverted_cons id c _ _
    rw [hreverted, Sheet.putAll_concat, Sheet.read_put]
    by_cases hq : q = c.1
    · rw [if_pos hq, hq, CellState.stored?_stored]
    · rw [if_neg hq]
      refine (ih (s.put c.1 c.2)).trans ?_
      rw [Sheet.read_put, if_neg hq]

/-! ## Cells of a document -/

section Content

variable (d : Document) (source : ChangeSource) (sheet : String)
  (cells : List (Position × CellState))

theorem sheetFor_editSheet :
    (d.editSheet source sheet cells).1.sheetFor sheet =
      (setCells sheet (d.sheetFor sheet) cells).1 := by
  simp [sheetFor, editSheet, Keyed.get?_set]

theorem change_edit {cells : List (Position × CellState)} (h : cells ≠ []) :
    d.change (.edit source sheet cells) = ((d.editSheet source sheet cells).1,
      some ⟨source, (setCells sheet (d.sheetFor sheet) cells).2⟩) := by
  cases cells with
  | nil => exact absurd rfl h
  | cons c cells => rfl

theorem cell_edit (p : Position) :
    (d.change (.edit source sheet cells)).1.cell sheet p =
      (setCells sheet (d.sheetFor sheet) cells).1.read p := by
  by_cases h : cells = []
  · subst h
    exact (d.read_sheetFor sheet p).symm
  · rw [change_edit d source sheet h, ← sheetFor_editSheet d source, read_sheetFor]

theorem cell_edit_of_ne {sheet id : String} (h : id ≠ sheet) (p : Position) :
    (d.change (.edit source sheet cells)).1.cell id p = d.cell id p := by
  cases cells with
  | nil => rfl
  | cons c cells => simp [change, editSheet, cell, Keyed.get?_set, h]

/-- Edits of one cell each, one after the other. -/
def editEach : Document :=
  cells.foldl (fun d c => (d.change (.edit source sheet [c])).1) d

/-- An edit of many cells sets what edits of one each do. -/
theorem cell_editEach (id : String) (p : Position) : (d.editEach source sheet cells).cell id p =
    (d.change (.edit source sheet cells)).1.cell id p := by
  induction cells using List.reverseRecOn with
  | nil => rfl
  | append_singleton cells c ih =>
    rw [editEach, List.foldl_append]
    by_cases hid : id = sheet
    · subst hid
      rw [cell_edit, setCells_fst, Sheet.putAll_concat, Sheet.read_put, ← setCells_fst id,
        ← cell_edit d source, ← ih]
      refine (cell_edit _ source id [c] p).trans ?_
      rw [← read_sheetFor]
      exact Sheet.read_put ..
    · rw [d.cell_edit_of_ne source _ hid, ← d.cell_edit_of_ne source cells hid, ← ih]
      exact cell_edit_of_ne _ source [c] hid p

end Content

/-! ## The change that is told -/

/-- A document after an edit, and the change that is told of it. Before each cell stands what it
held after the edits before it. -/
structure Edited (d : Document) (source : ChangeSource) (sheet : String)
    (cells : List (Position × CellState)) (d' : Document) (e : ChangeEvent) : Prop where
  origin : e.source = source
  length : e.deltas.length = cells.length
  delta : ∀ i c, cells[i]? = some c → e.deltas[i]? = some
    (CellDelta.ofEdit sheet c ((d.change (.edit source sheet (cells.take i))).1.cell sheet c.1))
  named : ∀ p, d'.cell sheet p =
    ((cells.findRev? (·.1 = p)).map fun c => (c.2.stored?).getD .empty).getD (d.cell sheet p)
  others : ∀ id p, id ≠ sheet → d'.cell id p = d.cell id p
  reverted : ∀ source' id p,
    ((d'.change (.edit source' sheet (CellDelta.reverted e.deltas))).1.cell id p).stored? =
      (d.cell id p).stored?
  revertedEach : ∀ source' id p,
    ((d'.editEach source' sheet (CellDelta.reverted e.deltas)).cell id p).stored? =
      (d.cell id p).stored?

theorem edited (d : Document) (source : ChangeSource) (sheet : String)
    {cells : List (Position × CellState)} (h : cells ≠ []) : ∃ d' e,
      d.change (.edit source sheet cells) = (d', some e) ∧ Edited d source sheet cells d' e := by
  have hchange := d.change_edit source sheet h
  have hself := d.cell_edit source sheet cells
  have hne : ∀ id p, id ≠ sheet → _ := fun id p hid => d.cell_edit_of_ne source cells hid p
  rw [hchange] at hself hne
  have hreverted : ∀ source' id p, (((d.editSheet source sheet cells).1.change (.edit source' sheet
      (CellDelta.reverted (setCells sheet (d.sheetFor sheet) cells).2))).1.cell id p).stored? =
        (d.cell id p).stored? := by
    intro source' id p
    by_cases hid : id = sheet
    · subst hid
      rw [cell_edit, sheetFor_editSheet, setCells_fst, ← read_sheetFor]
      exact stored_read_reverted id (d.sheetFor id) cells p
    · rw [cell_edit_of_ne _ source' _ hid, hne id p hid]
  refine ⟨_, _, hchange, rfl, length_setCells .., ?_, ?_, hne, hreverted, ?_⟩
  · intro i c hi
    refine (getElem?_setCells sheet (d.sheetFor sheet) cells i).trans ?_
    rw [hi, Option.map_some, cell_edit]
  · intro p
    rw [hself, setCells_fst, Sheet.read_putAll, read_sheetFor]
  · intro source' id p
    rw [cell_editEach]
    exact hreverted source' id p

/-! ## The telling -/

variable {d d' : Document}

/-- Whatever listeners do meanwhile, each is told. -/
theorem mem_deliver (answer : DocumentAction → Document → Document × List Delivery)
    (e : ChangeEvent) {ls : List (Nat × Listener)} {k : Nat × Listener} (hk : k ∈ ls)
    (d : Document) :
    ⟨k.1, k.2, e⟩ ∈ (deliver answer e ls d).2 := by
  induction ls generalizing d with
  | nil => cases hk
  | cons l ls ih =>
    rcases List.mem_cons.mp hk with rfl | hk
    · exact List.mem_cons_self
    · exact List.mem_cons_of_mem _ (List.mem_append_right _ (ih hk _))

theorem told_of_change {a : DocumentAction} {e : ChangeEvent} (h : d.change a = (d', some e))
    {k : Nat × Listener} (hk : k ∈ d.listeners) : ⟨k.1, k.2, e⟩ ∈ (d.perform a).2 := by
  unfold perform performWithin
  rw [h]
  refine mem_deliver _ e ?_ d'
  have hlisteners := d.listeners_change a
  rw [h] at hlisteners
  exact hlisteners ▸ hk

/-- What is answered to a change comes after it. -/
theorem Unfolds.cell_later {n : Nat} {a : DocumentAction} {e : ChangeEvent} {d'' : Document}
    {es : List ChangeEvent} {ts : List Delivery} (h : d.change a = (d', some e))
    (hanswers : ∀ k ∈ d.listeners, k.2.AnswersByEdits) (hact : Unfolds n (.act a) d d'' es ts) :
    ∃ later, es = e :: later ∧ ∀ id p,
      d''.cell id p = CellDelta.shown (later.flatMap (·.deltas)) id p (d'.cell id p) := by
  have hlisteners := d.listeners_change a
  cases hact with
  | silent hnone =>
    rw [h] at hnone
    cases hnone
  | @change _ _ _ _ e' later _ hsome htell =>
    rw [h] at hsome htell hlisteners
    cases hsome
    exact ⟨later, rfl, htell.cell_eq hanswers (hlisteners ▸ hanswers)⟩

/-- An edit of no cells does nothing. Any other one is told as one change that is exact: it has a
delta for each cell of the edit, in order, with the state that the cell was set to, and with what it
held just before, when the cells before it had been set. Afterwards each cell that is named holds
the state that was given last for it, every other cell what it held, and setting the cells back from
the last delta to the first restores all of them, where an empty state counts as no cell. Every
listener is told this change. If no one answers, nothing more is told and the document stays so;
whoever answers by edits, the document comes to differ by what those changes say, which are made
later. -/
theorem edit_exact_and_reversible (d : Document) (source : ChangeSource) (sheet : String)
    (cells : List (Position × CellState)) :
    (cells = [] → d.perform (.edit source sheet cells) = (d, [])) ∧
    (cells ≠ [] → ∃ d' e, d.change (.edit source sheet cells) = (d', some e) ∧
      Edited d source sheet cells d' e ∧
      (∀ k ∈ d.listeners, ⟨k.1, k.2, e⟩ ∈ (d.perform (.edit source sheet cells)).2) ∧
      ((source = .user → ∀ k ∈ d.listeners, k.2.IsQuiet) →
        (d.perform (.edit source sheet cells)).1.sheets = d'.sheets ∧
        (d.perform (.edit source sheet cells)).2 = d.listeners.map fun k => ⟨k.1, k.2, e⟩) ∧
      ∀ n d'' es ts, (∀ k ∈ d.listeners, k.2.AnswersByEdits) →
        Unfolds n (.act (.edit source sheet cells)) d d'' es ts →
        d.perform (.edit source sheet cells) = (d'', ts) ∧ ∃ later, es = e :: later ∧
          ∀ id p, d''.cell id p =
            CellDelta.shown (later.flatMap (·.deltas)) id p (d'.cell id p)) := by
  constructor
  · rintro rfl
    rfl
  · intro hne
    obtain ⟨d', e, hchange, hedited⟩ := d.edited source sheet hne
    refine ⟨d', e, hchange, hedited, fun k => told_of_change hchange, fun hquiet => ?_,
      fun n d'' es ts hanswers hact => ⟨hact.perform_eq, hact.cell_later hchange hanswers⟩⟩
    have hanswered : ∀ e', (d.change (.edit source sheet cells)).2 = some e' → e'.source = .user →
        ∀ k ∈ d.listeners, k.2.IsQuiet := by
      intro e' he' huser
      rw [hchange] at he'
      obtain rfl := Option.some.inj he'
      exact hquiet (hedited.origin ▸ huser)
    obtain ⟨hsheets, -, htold⟩ := perform_quiet hanswered
    rw [hchange] at hsheets htold
    exact ⟨hsheets, htold⟩

/-- A document with one cell. -/
def filled : Document :=
  (({} : Document).perform (.edit .user "S" [(⟨0, 0⟩, .ofValue (.int 1))])).1

/-- A cell that is set and then cleared, and another one that is set. -/
def clearing : List (Position × CellState) :=
  [(⟨0, 0⟩, .ofValue (.int 2)), (⟨0, 0⟩, .empty), (⟨1, 0⟩, .ofValue (.int 3))]

theorem edit_exact_and_reversible_clearing : ∃ d' e,
    filled.change (.edit .user "S" clearing) = (d', some e) ∧
    e.deltas[0]? = some (.ofEdit "S" (⟨0, 0⟩, .ofValue (.int 2)) (.ofValue (.int 1))) ∧
    e.deltas[1]? = some (.ofEdit "S" (⟨0, 0⟩, .empty) (.ofValue (.int 2))) ∧
    d'.cell "S" ⟨0, 0⟩ = .empty ∧ d'.cell "S" ⟨1, 0⟩ = .ofValue (.int 3) ∧
    ((d'.change (.edit .user "S" (CellDelta.reverted e.deltas))).1.cell "S" ⟨0, 0⟩).stored? =
      some (.ofValue (.int 1)) := by
  obtain ⟨d', e, hchange, hedited, -⟩ :=
    (edit_exact_and_reversible filled .user "S" clearing).2 (by decide)
  refine ⟨d', e, hchange, ?_, ?_, ?_, ?_, ?_⟩
  · rw [hedited.delta 0 _ rfl]
    decide +kernel
  · rw [hedited.delta 1 _ rfl]
    decide +kernel
  · rw [hedited.named]
    decide
  · rw [hedited.named]
    decide
  · rw [hedited.reverted]
    decide +kernel

end Document

end SheetSync
