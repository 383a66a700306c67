import SheetSync.Proofs.Keyed
import SheetSync.Proofs.Plan
import SheetSync.Proofs.Store
import SheetSync.Store.Transfer
/-!
Copies of sheets, chunk by chunk. The chunks of the used range of a sheet show all of the sheet, and
tables written over chunks that cover a sheet make it show what they were made from. Main
statements: `Workbook.ofState_cell_load`, by which a document that loads the copy of a workbook
shows what the workbook does, and `Store.ofState_read_replay`, by which a sheet over which a copy is
written shows what the copy does.
-/
namespace SheetSync

/-- The cells of a copy are those given that are not empty. -/
theorem SheetSnapshot.entries_ofCells (id name : String) (cells : List (Position × CellState)) :
    ((ofCells id name cells).cells.map fun c => (c.position, c.state)) =
      cells.filter fun c => !c.2.isEmpty := by
  rw [ofCells, List.map_map]
  exact List.map_id _

/-- A copy that leaves empty cells out has none. -/
theorem SheetSnapshot.withoutEmpty_ofCells (id name : String)
    (cells : List (Position × CellState)) :
    (ofCells id name cells).withoutEmpty = ofCells id name cells := by
  simp [withoutEmpty, ofCells, List.filter_map, Function.comp_def]

/-! ## Loading -/

namespace Sheet

theorem read_of_not_mem_keys {s : Sheet} {q : Position} (h : q ∉ s.cells.keys) :
    s.read q = .empty := by
  have hnone : s.cells[q]? = none := by
    rw [Std.ExtTreeMap.mem_keys] at h
    exact Std.ExtTreeMap.getElem?_eq_none h
  rw [read, hnone]
  rfl

/-- What is read of a sheet, chunk by chunk. -/
def chunked (rows cols : Nat) (s : Sheet) : List (Position × CellState) :=
  match s.usedRange? with
  | some used => (used.chunks rows cols).flatMap fun c => c.entries (c.grid s.read)
  | none => []

/-- The positions in the chunks of a sheet. -/
def chunkPositions (rows cols : Nat) (s : Sheet) : List Position :=
  match s.usedRange? with
  | some used => (used.chunks rows cols).flatMap Rect.positions
  | none => []

theorem chunked_eq (rows cols : Nat) (s : Sheet) :
    s.chunked rows cols = (s.chunkPositions rows cols).map fun p => (p, s.read p) := by
  unfold chunked chunkPositions
  cases s.usedRange? with
  | none => rfl
  | some used => simp only [Rect.entries_grid, List.map_flatMap]

/-- Outside of its chunks, a sheet is empty. -/
theorem read_of_not_mem_chunkPositions {s : Sheet} (rows cols : Nat) {q : Position}
    (h : q ∉ s.chunkPositions rows cols) : s.read q = .empty := by
  refine read_of_not_mem_keys fun hq => h ?_
  unfold chunkPositions
  cases hused : s.usedRange? with
  | none =>
    rw [usedRange?, Rect.around?_eq_none] at hused
    rw [hused] at hq
    cases hq
  | some used =>
    obtain ⟨c, hc, hcq⟩ := Rect.exists_chunk_contains rows cols (Rect.contains_of_around? hused hq)
    exact List.mem_flatMap.mpr ⟨c, hc, Rect.mem_positions.mpr hcq⟩

/-- A sheet that is made of the copy of a sheet stores what that sheet shows, if it is anything. -/
theorem getElem?_cells_ofCells_chunked (rows cols : Nat) (id name : String) (s : Sheet)
    (q : Position) :
    (ofSnapshot (.ofCells id name (s.chunked rows cols))).cells[q]? = (s.read q).stored? := by
  have hcells : ((s.chunked rows cols).filter fun c => !c.2.isEmpty) =
      ((s.chunkPositions rows cols).filter fun p => !(s.read p).isEmpty).map
        fun p => (p, s.read p) := by
    rw [chunked_eq, List.filter_map]
    rfl
  rw [getElem?_cells_ofSnapshot, SheetSnapshot.entries_ofCells, hcells,
    ByPosition.getElem?_ofEntries_graph, CellState.stored?]
  by_cases hempty : (s.read q).isEmpty
  · simp [hempty]
  · -- what is not empty is read
    have hmem : q ∈ s.chunkPositions rows cols := by
      by_contra hnot
      rw [read_of_not_mem_chunkPositions rows cols hnot] at hempty
      exact hempty rfl
    simp [hempty, hmem]

/-- A sheet that is made of the copy of a sheet shows what that sheet shows. -/
theorem ofState_read_ofCells_chunked (rows cols : Nat) (id name : String) (s : Sheet)
    (q : Position) :
    CellEdit.ofState ((ofSnapshot (.ofCells id name (s.chunked rows cols))).read q) =
      .ofState (s.read q) := by
  rw [read, getElem?_cells_ofCells_chunked, CellState.stored?]
  split
  · next hempty => exact (CellEdit.ofState_of_isEmpty hempty).symm
  · rfl

end Sheet

namespace Workbook

/-- What is read of a sheet of a workbook. -/
def copyOf (b : Workbook) (rows cols : Nat) (info : SheetInfo) : SheetSnapshot :=
  .ofCells info.id info.name (((b.sheets.get? info.id).map (·.chunked rows cols)).getD [])

/-- What is read of a workbook. -/
def copy (b : Workbook) (rows cols : Nat) : Snapshot :=
  ⟨b.descriptor.sheets.map (b.copyOf rows cols)⟩

theorem map_sheets_copy (b : Workbook) (rows cols : Nat) :
    ((b.copy rows cols).sheets.map fun s => (s.id, Sheet.ofSnapshot s)) =
      b.sheets.map fun e => (e.1, .ofSnapshot (b.copyOf rows cols ⟨e.1, e.2.name⟩)) := by
  rw [copy, descriptor, List.map_map, List.map_map]
  rfl

/-- A document that loads the copy of a workbook shows what the workbook does. -/
theorem ofState_cell_load (b : Workbook) (rows cols : Nat) (d : Document) (id : String)
    (p : Position) :
    CellEdit.ofState ((d.change (.load (b.copy rows cols))).1.cell id p) =
      .ofState (b.cell id p) := by
  show CellEdit.ofState (((Keyed.get? id (Document.loadSheets (b.copy rows cols))).map
    fun s => s.read p).getD .empty) = _
  rw [cell_eq, Document.loadSheets, map_sheets_copy]
  cases hsheet : Keyed.get? id (Keyed.ofList _) with
  | none =>
    have hnot := Keyed.get?_ofList_eq_none_iff.mp hsheet
    rw [List.map_map] at hnot
    rw [Keyed.get?_eq_none_iff.mpr hnot]
  | some s =>
    obtain ⟨e, he, heq⟩ := List.mem_map.mp (Keyed.mem_of_get?_ofList hsheet)
    obtain ⟨rfl, rfl⟩ := Prod.mk.inj heq
    cases hs : Keyed.get? e.1 b.sheets with
    | none => exact absurd (List.mem_map.mpr ⟨e, he, rfl⟩) (Keyed.get?_eq_none_iff.mp hs)
    | some s =>
      simp only [copyOf, hs, Option.map_some, Option.getD_some]
      exact Sheet.ofState_read_ofCells_chunked rows cols _ _ s p

end Workbook

/-! ## Replaying -/

namespace Store

theorem lastStates_eq (cells : List SnapshotCell) :
    lastStates cells = ByPosition.ofEntries (cells.map fun c => (c.position, c.state)) := by
  simp [lastStates, ByPosition.ofEntries, List.foldl_map]

/-- The copy of a sheet shows what the sheet does. -/
theorem ofState_lastStates_snapshot (id : String) (s : Sheet) (q : Position) :
    CellEdit.ofState (((lastStates (s.snapshot id).cells)[q]?).getD .empty) =
      .ofState (s.read q) := by
  rw [lastStates_eq, Sheet.snapshot, SheetSnapshot.entries_ofCells]
  cases hq : (ByPosition.ofEntries (s.cells.toList.filter fun c => !c.2.isEmpty))[q]? with
  | some a =>
    have hmem := List.mem_of_mem_filter (ByPosition.mem_of_getElem?_ofEntries hq)
    rw [Std.ExtTreeMap.mem_toList_iff_getElem?_eq_some] at hmem
    rw [Sheet.read, hmem]
  | none =>
    rw [ByPosition.getElem?_ofEntries_eq_none] at hq
    cases hcell : s.cells[q]? with
    | none => rw [Sheet.read, hcell]
    | some a =>
      have hmem := Std.ExtTreeMap.mem_toList_iff_getElem?_eq_some.mpr hcell
      -- what a sheet holds but its copy does not is empty
      have hempty : a.isEmpty := by
        by_contra hne
        exact hq (List.mem_map.mpr ⟨(q, a), List.mem_filter.mpr ⟨hmem, by simpa using hne⟩, rfl⟩)
      rw [Sheet.read, hcell]
      exact (CellEdit.ofState_of_isEmpty hempty).symm

theorem chunkTable_eq (cells : ByPosition CellState) (chunk : Rect) :
    chunkTable cells chunk = chunk.grid fun p => .ofState ((cells[p]?).getD .empty) := by
  unfold chunkTable
  congr 1
  funext p
  cases cells[p]? <;> rfl

/-- The write of a chunk of a copy. -/
def chunkWrite (id : String) (cells : ByPosition CellState) (chunk : Rect) : Write :=
  .range id chunk (chunkTable cells chunk)

/-- A chunk makes a sheet store what its cells say, and nothing else. -/
theorem getElem?_cells_chunkWrite (id : String) (cells : ByPosition CellState) (chunk : Rect)
    (s : Sheet) (q : Position) :
    ((chunkWrite id cells chunk).onto s).cells[q]? =
      if chunk.contains q then cells[q]?.bind CellState.written? else s.cells[q]? := by
  rw [chunkWrite, Write.onto, Write.entries, chunkTable_eq, Rect.entries_grid, List.map_map,
    Sheet.getElem?_cells_putAll]
  simp only [Function.comp_def, ByPosition.getElem?_ofEntries_graph, Rect.mem_positions]
  by_cases hq : chunk.contains q
  · simp only [hq, if_true, Option.map_some, Option.getD_some]
    cases cells[q]? <;> rfl
  · simp [hq]

theorem getElem?_cells_chunkWrites (id : String) (cells : ByPosition CellState) (chunks : List Rect)
    (s : Sheet) (q : Position) :
    ((chunks.map (chunkWrite id cells)).foldl (fun s w => w.onto s) s).cells[q]? =
      if ∃ c ∈ chunks, c.contains q then cells[q]?.bind CellState.written? else s.cells[q]? := by
  induction chunks generalizing s with
  | nil => simp
  | cons c chunks ih =>
    rw [List.map_cons, List.foldl_cons, ih, getElem?_cells_chunkWrite]
    by_cases hrest : ∃ c ∈ chunks, c.contains q
    · simp [hrest]
    · by_cases hc : c.contains q <;> simp [hc, hrest]

/-- The area of a replay holds all that is written and all that was there. -/
theorem contains_of_replayArea? {cells : ByPosition CellState} {used : Option Rect} {area : Rect}
    (h : replayArea? cells used = some area) {q : Position}
    (hq : q ∈ cells.keys ∨ ∃ r, used = some r ∧ r.contains q) : area.contains q := by
  unfold replayArea? at h
  -- the area is drawn around what is written and what was there, as far as there is any
  cases haround : Rect.around? cells.keys with
  | none =>
    rw [haround] at h
    rw [Rect.around?_eq_none] at haround
    rcases hq with hq | ⟨r, rfl, hr⟩
    · rw [haround] at hq
      cases hq
    · obtain rfl := Option.some.inj h
      exact hr
  | some r =>
    rw [haround] at h
    cases used with
    | none =>
      obtain rfl := Option.some.inj h
      rcases hq with hq | ⟨_, ⟨⟩, -⟩
      exact Rect.contains_of_around? haround hq
    | some u =>
      obtain rfl := Option.some.inj h
      rcases hq with hq | ⟨_, ⟨rfl⟩, hr⟩
      · exact Rect.contains_union_left (Rect.contains_of_around? haround hq)
      · exact Rect.contains_union_right hr

/-- The chunks that a replay writes. -/
def replayChunks (rows cols : Nat) (cells : ByPosition CellState) (s : Sheet) : List Rect :=
  match replayArea? cells s.usedRange? with
  | some area => area.chunks rows cols
  | none => []

/-- Outside of what a replay writes, nothing is to be written and nothing was there. -/
theorem getElem?_of_not_replayed {rows cols : Nat} {cells : ByPosition CellState} {s : Sheet}
    {q : Position} (h : ¬ ∃ c ∈ replayChunks rows cols cells s, c.contains q) :
    cells[q]? = none ∧ s.cells[q]? = none := by
  have hnot : q ∉ cells.keys ∧ q ∉ s.cells.keys := by
    by_contra hq
    have hq : q ∈ cells.keys ∨ q ∈ s.cells.keys := by
      rw [not_and_or, not_not, not_not] at hq
      exact hq
    apply h
    unfold replayChunks
    cases harea : replayArea? cells s.usedRange? with
    | some area =>
      refine Rect.exists_chunk_contains rows cols (contains_of_replayArea? harea (hq.imp_right ?_))
      intro hq
      cases hused : s.usedRange? with
      | some used => exact ⟨used, rfl, Rect.contains_of_around? hused hq⟩
      | none =>
        rw [Sheet.usedRange?, Rect.around?_eq_none] at hused
        rw [hused] at hq
        cases hq
    | none =>
      -- without an area there was nothing to draw it around
      exfalso
      unfold replayArea? at harea
      cases haround : Rect.around? cells.keys with
      | some r =>
        rw [haround] at harea
        cases hused : s.usedRange? <;> rw [hused] at harea <;> cases harea
      | none =>
        rw [haround] at harea
        rw [Sheet.usedRange?, Rect.around?_eq_none] at harea
        rw [Rect.around?_eq_none] at haround
        rw [harea, haround] at hq
        rcases hq with hq | hq <;> cases hq
  rw [Std.ExtTreeMap.mem_keys, Std.ExtTreeMap.mem_keys] at hnot
  exact ⟨Std.ExtTreeMap.getElem?_eq_none hnot.1, Std.ExtTreeMap.getElem?_eq_none hnot.2⟩

/-- A sheet over which a copy is written stores what the copy says, and nothing else. -/
theorem getElem?_cells_replay (id : String) (rows cols : Nat) (cells : ByPosition CellState)
    (s : Sheet) (q : Position) :
    (((replayChunks rows cols cells s).map (chunkWrite id cells)).foldl
        (fun s w => w.onto s) s).cells[q]? = cells[q]?.bind CellState.written? := by
  rw [getElem?_cells_chunkWrites]
  split
  · rfl
  · next h =>
    obtain ⟨hcells, hthere⟩ := getElem?_of_not_replayed h
    rw [hcells, hthere]
    rfl

/-- A sheet over which a copy is written shows what the copy does. -/
theorem ofState_read_replay (id : String) (rows cols : Nat) (cells : ByPosition CellState)
    (s : Sheet) (q : Position) :
    CellEdit.ofState ((((replayChunks rows cols cells s).map (chunkWrite id cells)).foldl
        (fun s w => w.onto s) s).read q) =
      .ofState ((cells[q]?).getD .empty) := by
  rw [Sheet.read, getElem?_cells_replay]
  cases cells[q]? with
  | none => rfl
  | some c => exact CellEdit.ofState_written c

/-- The write of a chunk has the shape of the chunk. -/
theorem fits_chunkWrite {limit : Nat} {chunk : Rect} (hvalid : chunk.isValid)
    (harea : chunk.area ≤ limit) (id : String) (cells : ByPosition CellState) :
    (chunkWrite id cells chunk).Fits limit := by
  rw [chunkWrite, chunkTable_eq]
  exact ⟨hvalid, harea, Rect.length_grid .., fun line hline => Rect.length_of_mem_grid hline⟩

/-- The writes of a copy over a sheet. -/
def copyWrites (rows cols : Nat) (copy : SheetSnapshot) (there : Sheet) : List Write :=
  (replayChunks rows cols (lastStates copy.cells) there).map
    (chunkWrite copy.id (lastStates copy.cells))

theorem sheet_of_mem_copyWrites {rows cols : Nat} {copy : SheetSnapshot} {there : Sheet} {w : Write}
    (h : w ∈ copyWrites rows cols copy there) : w.sheet = copy.id := by
  obtain ⟨c, -, rfl⟩ := List.mem_map.mp h
  rfl

/-- The writes of chunks that are no larger than the limit are within it. -/
theorem fits_of_mem_copyWrites {rows cols : Nat} (hchunk : max rows 1 * max cols 1 ≤ rangeLimit)
    {copy : SheetSnapshot} {there : Sheet} {w : Write} (h : w ∈ copyWrites rows cols copy there) :
    w.Fits rangeLimit := by
  obtain ⟨c, hc, rfl⟩ := List.mem_map.mp h
  unfold replayChunks at hc
  split at hc
  · obtain ⟨hvalid, harea⟩ := Rect.chunk_bounds hc
    exact fits_chunkWrite hvalid (Nat.le_trans harea hchunk) _ _
  · cases hc

/-- The writes that make a sheet of a workbook show what another one does. -/
def replayWrites (rows cols : Nat) (id : String) (s there : Sheet) : List Write :=
  (replayChunks rows cols (lastStates (s.snapshot id).cells) there).map
    (chunkWrite id (lastStates (s.snapshot id).cells))

theorem ofState_read_replayWrites (rows cols : Nat) (id : String) (s there : Sheet) (q : Position) :
    CellEdit.ofState
        (((replayWrites rows cols id s there).foldl (fun s w => w.onto s) there).read q) =
      .ofState (s.read q) :=
  (ofState_read_replay id rows cols _ there q).trans (ofState_lastStates_snapshot id s q)

theorem sheet_of_mem_replayWrites {rows cols : Nat} {id : String} {s there : Sheet} {w : Write}
    (h : w ∈ replayWrites rows cols id s there) : w.sheet = id := by
  obtain ⟨c, -, rfl⟩ := List.mem_map.mp h
  rfl

end Store

namespace Workbook

/-- A workbook over which sheets were written: it shows them where it has them, and else is what it
was. -/
structure Restored (base : Workbook) (sheets : Keyed Sheet) (b : Workbook) : Prop
    extends SameFrame base b where
  both : ∀ id s, (base.sheets.get? id).isSome → sheets.get? id = some s →
    ∀ p, CellEdit.ofState (b.cell id p) = .ofState (s.read p)
  others : ∀ id, base.sheets.get? id = none ∨ sheets.get? id = none →
    ∀ p, b.cell id p = base.cell id p

theorem Restored.nil (base : Workbook) : Restored base [] base where
  toSameFrame := .refl base
  both _ _ _ h := by cases h
  others _ _ _ := rfl

/-- A sheet that is not there is not written. -/
theorem Restored.skip {base b : Workbook} {id : String} {s : Sheet} {rest : Keyed Sheet}
    (hid : base.sheets.get? id = none) (h : Restored base rest b) :
    Restored base ((id, s) :: rest) b where
  toSameFrame := h.toSameFrame
  both other t hother ht := by
    have hne : other ≠ id := by
      rintro rfl
      rw [hid] at hother
      cases hother
    rw [Keyed.get?_cons, if_neg hne] at ht
    exact h.both other t hother ht
  others other hother := by
    refine h.others other (hother.imp_right fun hnone => ?_)
    rw [Keyed.get?_cons] at hnone
    split at hnone
    · cases hnone
    · exact hnone

/-- The workbook after one sheet of it was written, and then others. -/
theorem Restored.cons {base b : Workbook} {id : String} {s there : Sheet} {rest : Keyed Sheet}
    (hid : base.sheets.get? id = some there) (hnot : id ∉ Keyed.keys rest) {rows cols : Nat}
    (hfits : ∀ w ∈ Store.replayWrites rows cols id s there, w.Fits rangeLimit)
    (h : Restored ((Store.replayWrites rows cols id s there).foldl after base) rest b) :
    Restored base ((id, s) :: rest) b := by
  have hread := Store.ofState_read_replayWrites rows cols id s there
  have hws : ∀ w ∈ Store.replayWrites rows cols id s there, w.Fits rangeLimit ∧ w.sheet = id :=
    fun w hw => ⟨hfits w hw, Store.sheet_of_mem_replayWrites hw⟩
  -- from here on only what these writes do counts, not which they are
  generalize Store.replayWrites rows cols id s there = ws at hread hws h
  have hframe := base.sameFrame_foldl_after ws
  have hsheets := get?_sheets_foldl_after (b := base) hws
  -- the sheet is written once, so later writes leave it alone
  have hrest : rest.get? id = none := Keyed.get?_eq_none_iff.mpr hnot
  refine ⟨hframe.trans h.toSameFrame, ?_, ?_⟩
  · intro other u hother hu p
    rw [Keyed.get?_cons] at hu
    split at hu
    · next heq =>
      obtain rfl := Option.some.inj hu
      rw [heq, h.others id (.inr hrest), cell_eq, hsheets, hid]
      simp only [Option.map_some, Option.getD_some, if_true]
      exact hread p
    · exact h.both other u (by rw [hframe.isSome_get?_eq]; exact hother) hu p
  · intro other hother p
    have hne : other ≠ id := by
      rintro rfl
      rw [hid, Keyed.get?_cons, if_pos rfl] at hother
      rcases hother with hother | hother <;> cases hother
    rw [Keyed.get?_cons, if_neg hne] at hother
    have hsame : (ws.foldl after base).sheets.get? other = base.sheets.get? other := by
      rw [hsheets]
      simp [hne]
    rw [h.others other (by rw [hsame]; exact hother), cell_eq, cell_eq, hsame]

/-- What a workbook shows at a position when sheets are written over it. -/
def overlaid (base : Workbook) (sheets : Keyed Sheet) (id : String) (p : Position) : CellState :=
  match base.sheets.get? id, sheets.get? id with
  | some _, some s => s.read p
  | _, _ => base.cell id p

theorem Restored.ofState_cell {base b : Workbook} {sheets : Keyed Sheet}
    (h : Restored base sheets b) (id : String) (p : Position) :
    CellEdit.ofState (b.cell id p) = .ofState (base.overlaid sheets id p) := by
  unfold overlaid
  cases hbase : base.sheets.get? id with
  | none => rw [h.others id (.inl hbase)]
  | some there =>
    cases hsheet : sheets.get? id with
    | none => rw [h.others id (.inr hsheet)]
    | some s => exact h.both id s (by rw [hbase]; rfl) hsheet p

/-- Whether two workbooks have the same sheets, names and tables and show the same. -/
structure Same (b b' : Workbook) : Prop extends SameFrame b b' where
  cells : ∀ id p, CellEdit.ofState (b'.cell id p) = .ofState (b.cell id p)

/-- A workbook comes back just if what it is put back from has its sheets, names and tables and,
with the sheets that are written over it, shows its cells. -/
theorem Restored.same_iff {base b : Workbook} {sheets : Keyed Sheet} (h : Restored base sheets b)
    (old : Workbook) : Same old b ↔ SameFrame old base ∧
      ∀ id p, CellEdit.ofState (base.overlaid sheets id p) = .ofState (old.cell id p) := by
  constructor
  · intro hsame
    refine ⟨⟨?_, ?_, ?_⟩, fun id p => ?_⟩
    · exact h.descriptor.symm.trans hsame.descriptor
    · exact h.names.symm.trans hsame.names
    · exact h.tables.symm.trans hsame.tables
    · exact (h.ofState_cell id p).symm.trans (hsame.cells id p)
  · rintro ⟨hframe, hcells⟩
    exact ⟨hframe.trans h.toSameFrame, fun id p => (h.ofState_cell id p).trans (hcells id p)⟩

end Workbook

end SheetSync
