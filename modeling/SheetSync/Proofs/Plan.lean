import SheetSync.Plan
import SheetSync.Proofs.Cell.Sheet
import Mathlib.Data.List.Perm.Subperm
/-!
Planned writes carry over what they were planned from. For changes of one sheet of which a table
names no position twice, the writes fit their ranges, and a sheet that takes them in their order
shows at each position what was set there. A table is planned only where it has no gap: as many
positions as a rectangle has cells, all of them in it and none twice, are those of the rectangle.
-/
namespace SheetSync

namespace ByPosition

variable {α β : Type}

theorem getElem?_ofEntries_map (f : α → β) (entries : List (Position × α)) (q : Position) :
    (ofEntries (entries.map fun e => (e.1, f e.2)))[q]? = (ofEntries entries)[q]?.map f := by
  rw [getElem?_ofEntries_items, getElem?_ofEntries_eq, Option.map_map]
  rfl

/-- Entries that a function gives for some positions. -/
theorem getElem?_ofEntries_graph [DecidableEq Position] (f : Position → α) (ps : List Position)
    (q : Position) :
    (ofEntries (ps.map fun p => (p, f p)))[q]? = if q ∈ ps then some (f q) else none := by
  split
  · next h =>
    cases hq : (ofEntries (ps.map fun p => (p, f p)))[q]? with
    | none =>
      rw [getElem?_ofEntries_eq_none, List.map_map] at hq
      exact absurd (List.mem_map.mpr ⟨q, h, rfl⟩) hq
    | some a =>
      obtain ⟨p, -, hp⟩ := List.mem_map.mp (mem_of_getElem?_ofEntries hq)
      obtain ⟨rfl, rfl⟩ := Prod.mk.inj hp
      rfl
  · next h =>
    rw [getElem?_ofEntries_eq_none, List.map_map]
    simpa using h

/-- A table of its rectangle's shape has one entry for each position of it. -/
theorem getElem?_ofEntries_entries [Inhabited α] {r : Rect} {table : List (List α)}
    (hrows : table.length = r.rows) (hcols : ∀ line ∈ table, line.length = r.cols) (q : Position) :
    (ofEntries (r.entries table))[q]? = r.entry? table q := by
  rw [Rect.eq_grid_entry? hrows hcols fun _ => default, Rect.entries_grid, getElem?_ofEntries_graph,
    Rect.entry?_grid]
  simp only [Rect.mem_positions]

end ByPosition

/-! ## Writes as changes of a sheet -/

namespace Write

/-- What a write sets, position by position. -/
def entries : Write → List (Position × CellEdit)
  | .range _ rect values => rect.entries values
  | .point _ p e => [(p, e)]

/-- What a sheet holds after a write. -/
def onto (w : Write) (s : Sheet) : Sheet := s.putAll (w.entries.map fun e => (e.1, e.2.toState))

/-- The table of a range write lies on a valid rectangle of at most so many cells and has its
shape. -/
def Fits (limit : Nat) : Write → Prop
  | .range _ rect values =>
    rect.isValid ∧ rect.area ≤ limit ∧ values.length = rect.rows ∧
      ∀ line ∈ values, line.length = rect.cols
  | .point _ _ _ => True

/-- Whether a write sets a position of a sheet. -/
def Reaches (w : Write) (id : String) (p : Position) : Prop :=
  w.sheet = id ∧ p ∈ w.entries.map Prod.fst

theorem Fits.mono {m n : Nat} (hmn : m ≤ n) {w : Write} (h : w.Fits m) : w.Fits n := by
  cases w with
  | point => trivial
  | range sheet rect values => exact ⟨h.1, Nat.le_trans h.2.1 hmn, h.2.2⟩

end Write

namespace Plan

theorem lastEdits_eq (edits : Edits) : lastEdits edits = ByPosition.ofEntries edits := rfl

/-- Positions that are as many as the cells of a rectangle, all in it and none twice, are all of
its positions. -/
theorem mem_of_dense {ps : List Position} {rect : Rect} (hnodup : ps.Nodup)
    (hin : ∀ p ∈ ps, rect.contains p) (harea : rect.area = ps.length) {q : Position}
    (hq : rect.contains q) : q ∈ ps := by
  have hsub : ps ⊆ rect.positions := fun p hp => Rect.mem_positions.mpr (hin p hp)
  -- both lists are free of doubles and of one length, so one inclusion is enough
  have hperm : ps.Perm rect.positions := by
    refine (List.subperm_of_subset hnodup hsub).perm_of_length_le ?_
    rw [Rect.length_positions]
    exact Nat.le_of_eq harea
  exact hperm.mem_iff.mpr (Rect.mem_positions.mpr hq)

theorem sheet_of_mem_sheetWrites {maxArea : Nat} {sheet : String} {edits : Edits} {w : Write}
    (h : w ∈ sheetWrites maxArea sheet edits) : w.sheet = sheet := by
  unfold sheetWrites at h
  split at h
  · simp at h
  · split at h
    · obtain rfl := List.mem_singleton.mp h
      rfl
    · obtain ⟨e, -, rfl⟩ := List.mem_map.mp h
      rfl

theorem fits_of_mem_sheetWrites {maxArea : Nat} {sheet : String} {edits : Edits} {w : Write}
    (h : w ∈ sheetWrites maxArea sheet edits) : w.Fits maxArea := by
  unfold sheetWrites at h
  split at h
  · simp at h
  · next rect hrect =>
    split at h
    · next hdense =>
      obtain rfl := List.mem_singleton.mp h
      simp only [isDense, Bool.and_eq_true, decide_eq_true_eq] at hdense
      -- a rectangle was drawn, so there is something to draw it around
      obtain ⟨p, hp⟩ : ∃ p, p ∈ edits.map Prod.fst := by
        refine List.exists_mem_of_ne_nil _ fun hnil => ?_
        rw [hnil] at hrect
        simp [Rect.around?] at hrect
      rw [Write.Fits, table]
      refine ⟨Rect.isValid_of_contains (Rect.contains_of_around? hrect hp), hdense.2, ?_, ?_⟩
      · exact Rect.length_grid ..
      · intro line hl
        exact Rect.length_of_mem_grid hl
    · obtain ⟨e, -, rfl⟩ := List.mem_map.mp h
      trivial

theorem fits_of_mem_writes {maxArea : Nat} {deltas : List CellDelta} {w : Write}
    (h : w ∈ writes maxArea deltas) : w.Fits maxArea := by
  obtain ⟨⟨sheet, edits⟩, -, hw⟩ := List.mem_flatMap.mp h
  exact fits_of_mem_sheetWrites hw

/-- Every edited position is set by a write that is planned. -/
theorem exists_reaches (maxArea : Nat) (sheet : String) {edits : Edits} {e : Position × CellEdit}
    (he : e ∈ edits) : ∃ w ∈ sheetWrites maxArea sheet edits, w.Reaches sheet e.1 := by
  have hp : e.1 ∈ edits.map Prod.fst := List.mem_map_of_mem he
  unfold sheetWrites
  split
  · next hnone =>
    rw [Rect.around?_eq_none.mp hnone] at hp
    cases hp
  · next rect hrect =>
    split
    · refine ⟨_, List.mem_singleton_self _, rfl, ?_⟩
      rw [Write.entries, table, Rect.entries_grid, List.map_map]
      exact List.mem_map.mpr
        ⟨e.1, Rect.mem_positions.mpr (Rect.contains_of_around? hrect hp), rfl⟩
    · exact ⟨_, List.mem_map_of_mem he, rfl, List.mem_singleton_self _⟩

/-- Whether edits at some positions are carried out as they are called for: a table is planned for
them only if it names no position twice and is within a limit. -/
def IsSound (limit maxArea : Nat) (ps : List Position) : Prop :=
  ∀ rect, Rect.around? ps = some rect → isDense rect ps.length maxArea →
    ps.Nodup ∧ rect.area ≤ limit

theorem isSound_of_nodup {limit maxArea : Nat} {ps : List Position} (hnodup : ps.Nodup)
    (harea : maxArea ≤ limit) : IsSound limit maxArea ps := by
  intro rect _ hdense
  simp only [isDense, Bool.and_eq_true, decide_eq_true_eq] at hdense
  exact ⟨hnodup, Nat.le_trans hdense.2 harea⟩

/-- No table is planned for an edit of one cell. -/
theorem isSound_singleton (limit maxArea : Nat) (p : Position) : IsSound limit maxArea [p] := by
  intro rect _ hdense
  simp only [isDense, List.length_singleton, Bool.and_eq_true, decide_eq_true_eq] at hdense
  omega

/-- What is planned for sound edits is within the limit. -/
theorem IsSound.fits {limit maxArea : Nat} {sheet : String} {edits : Edits}
    (h : IsSound limit maxArea (edits.map Prod.fst)) {w : Write}
    (hw : w ∈ sheetWrites maxArea sheet edits) : w.Fits limit := by
  have hfits := fits_of_mem_sheetWrites hw
  unfold sheetWrites at hw
  split at hw
  · cases hw
  · next rect hrect =>
    split at hw
    · next hdense =>
      obtain rfl := List.mem_singleton.mp hw
      rw [← List.length_map (f := Prod.fst)] at hdense
      exact ⟨hfits.1, (h rect hrect hdense).2, hfits.2.2⟩
    · obtain ⟨e, -, rfl⟩ := List.mem_map.mp hw
      trivial

theorem foldl_onto_points (sheet : String) (edits : Edits) (s : Sheet) :
    (edits.map fun (p, e) => Write.point sheet p e).foldl (fun s w => w.onto s) s =
      s.putAll (edits.map fun e => (e.1, e.2.toState)) := by
  induction edits generalizing s with
  | nil => rfl
  | cons e edits ih => simpa [Write.onto, Write.entries, Sheet.putAll] using ih _

/-- A sheet that takes the writes planned for sound edits holds what they set. -/
theorem ofState_read_sheetWrites {limit maxArea : Nat} (sheet : String) {edits : Edits}
    (hsound : IsSound limit maxArea (edits.map Prod.fst)) (s : Sheet) (q : Position) :
    CellEdit.ofState (((sheetWrites maxArea sheet edits).foldl (fun s w => w.onto s) s).read q) =
      .ofState (((ByPosition.ofEntries edits)[q]?.map CellEdit.toState).getD (s.read q)) := by
  unfold sheetWrites
  split
  · next h =>
    rw [Rect.around?_eq_none, List.map_eq_nil_iff] at h
    simp [h]
  · next rect hrect =>
    split
    · next hdense =>
      have hnodup := (hsound rect hrect (by rwa [List.length_map])).1
      simp only [isDense, Bool.and_eq_true, decide_eq_true_eq] at hdense
      have hin : ∀ p ∈ edits.map Prod.fst, rect.contains p := fun p hp =>
        Rect.contains_of_around? hrect hp
      have harea : rect.area = (edits.map Prod.fst).length := by
        rw [List.length_map]
        exact hdense.1.1
      simp only [List.foldl_cons, List.foldl_nil, Write.onto, Write.entries, table,
        Rect.entries_grid, List.map_map, Function.comp_def, lastEdits_eq]
      rw [Sheet.ofState_read_putAll, ByPosition.getElem?_ofEntries_graph]
      split
      · next hq =>
        -- a table has no gap: each of its positions was edited
        have hmem := mem_of_dense hnodup hin harea (Rect.mem_positions.mp hq)
        cases hlast : (ByPosition.ofEntries edits)[q]? with
        | none => exact absurd hmem (ByPosition.getElem?_ofEntries_eq_none.mp hlast)
        | some e => simp
      · next hq =>
        have hnone : (ByPosition.ofEntries edits)[q]? = none := by
          rw [ByPosition.getElem?_ofEntries_eq_none]
          exact fun hmem => hq (Rect.mem_positions.mpr (hin q hmem))
        simp [hnone]
    · rw [foldl_onto_points, Sheet.ofState_read_putAll, ByPosition.getElem?_ofEntries_map]

end Plan

/-! ## The changes of one edit -/

/-- Lies on the sheet. -/
def Position.InGrid (p : Position) : Prop := p.row < gridSize ∧ p.col < gridSize

theorem CellDelta.position?_of_inGrid {p : Position} (hp : p.InGrid) (sheet : String)
    (before after : CellState) :
    position? { sheet, row := p.row, col := p.col, before, after } = some p := by
  obtain ⟨hr, hc⟩ := hp
  rw [position?, if_pos (by simp only; omega)]
  rfl

namespace Document

theorem setCells_fst (id : String) (s : Sheet) (cells : List (Position × CellState)) :
    (setCells id s cells).1 = s.putAll cells := by
  induction cells generalizing s with
  | nil => rfl
  | cons c cells ih => exact ih _

/-- The changes of cells on the sheet call for the edits of these cells, in their order. -/
theorem edits_setCells (id : String) (s : Sheet) {cells : List (Position × CellState)}
    (hcells : ∀ c ∈ cells, c.1.InGrid) :
    (setCells id s cells).2.filterMap
        (fun d => d.position?.map fun p => (d.sheet, p, CellEdit.ofState d.after)) =
      cells.map fun c => (id, c.1, CellEdit.ofState c.2) := by
  induction cells generalizing s with
  | nil => rfl
  | cons c cells ih =>
    have hc := hcells c List.mem_cons_self
    have hrest := ih (s.put c.1 c.2) fun e he => hcells e (List.mem_cons_of_mem c he)
    rw [setCells, List.map_cons, ← hrest]
    apply List.filterMap_cons_some
    rw [CellDelta.position?_of_inGrid hc]
    rfl

end Document

namespace Plan

theorem bySheet_setCells (id : String) (s : Sheet) {cells : List (Position × CellState)}
    (hne : cells ≠ []) (hcells : ∀ c ∈ cells, c.1.InGrid) :
    bySheet (Document.setCells id s cells).2 =
      [(id, cells.map fun c => (c.1, CellEdit.ofState c.2))] := by
  -- all edits are of one sheet
  have hsheets : (cells.map fun _ => id).eraseDups = [id] := by
    obtain ⟨c, cells, rfl⟩ := List.exists_cons_of_ne_nil hne
    rw [List.map_cons, List.eraseDups_cons]
    simp
  simp only [bySheet, Document.edits_setCells id s hcells, List.map_map, Function.comp_def,
    hsheets, List.filterMap_map, List.map_cons, List.map_nil, if_true]
  rw [← List.filterMap_eq_map]
  rfl

/-- The writes for an edit of one sheet. -/
theorem writes_setCells (maxArea : Nat) (id : String) (s : Sheet)
    {cells : List (Position × CellState)} (hne : cells ≠ [])
    (hcells : ∀ c ∈ cells, c.1.InGrid) :
    writes maxArea (Document.setCells id s cells).2 =
      sheetWrites maxArea id (cells.map fun c => (c.1, CellEdit.ofState c.2)) := by
  simp [writes, bySheet_setCells id s hne hcells]

/-- A sheet in step with an edited one is in step with it again after the writes for the edit. -/
theorem ofState_read_edit {limit maxArea : Nat} (id : String)
    {cells : List (Position × CellState)}
    (hsound : IsSound limit maxArea (cells.map Prod.fst)) {s t : Sheet} {q : Position}
    (hst : CellEdit.ofState (s.read q) = .ofState (t.read q)) :
    CellEdit.ofState (((sheetWrites maxArea id
        (cells.map fun c => (c.1, CellEdit.ofState c.2))).foldl (fun s w => w.onto s) s).read q) =
      .ofState ((t.putAll cells).read q) := by
  have hedits : IsSound limit maxArea
      ((cells.map fun c => (c.1, CellEdit.ofState c.2)).map Prod.fst) := by
    simpa [Function.comp_def] using hsound
  rw [ofState_read_sheetWrites id hedits, Sheet.ofState_read_putAll,
    ByPosition.getElem?_ofEntries_map]
  cases (ByPosition.ofEntries cells)[q]? with
  | none => exact hst
  | some c => exact CellEdit.ofState_toState_ofState c

end Plan

end SheetSync
