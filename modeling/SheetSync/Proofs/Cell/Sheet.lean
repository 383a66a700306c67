import SheetSync.Proofs.Cell.Rect
import SheetSync.Proofs.Keyed
import SheetSync.Document
import Mathlib.Data.List.Induction
/-!
Sheets as seen by whoever writes them: a state and the edit that it calls for count as the same, so
that a formula hides the value beside it and an empty state is no cell at all. Main statement:
`ofState_read_putAll`, by which setting cells one after the other leaves at each position what was
set there last.
-/
namespace SheetSync

namespace CellEdit

@[simp] theorem ofState_empty : ofState .empty = clear := rfl

theorem ofState_of_isEmpty {s : CellState} (h : s.isEmpty) : ofState s = clear := by
  simp only [CellState.isEmpty, Bool.and_eq_true, Value.isNull_iff, Option.isNone_iff_eq_none] at h
  simp [ofState, h.1, h.2, clear]

theorem ofState_of_formula?_eq_none {s : CellState} (h : s.formula? = none) :
    ofState s = ⟨s.value, none⟩ := by
  rw [ofState, h]

theorem ofState_of_formula?_eq_some {s : CellState} {f : String} (h : s.formula? = some f) :
    ofState s = ⟨.null, some f⟩ := by
  rw [ofState, h]

@[simp] theorem ofState_toState_ofState (s : CellState) :
    ofState (ofState s).toState = ofState s := by
  cases h : s.formula? with
  | none =>
    rw [ofState_of_formula?_eq_none h]
    rfl
  | some f =>
    rw [ofState_of_formula?_eq_some h]
    -- a formula is kept only if it has a text
    have hf : f ≠ "" := by
      simp only [CellState.formula?, Option.filter_eq_some_iff] at h
      simpa using h.2
    apply ofState_of_formula?_eq_some
    simp [toState, CellState.formula?, hf]

end CellEdit

/-- What a sheet stores of a state: nothing of an empty one. -/
def CellState.stored? (c : CellState) : Option CellState := if c.isEmpty then none else some c

theorem CellState.isEmpty_of_stored? {c c' : CellState} (h : c.stored? = some c') :
    c'.isEmpty = false := by
  unfold stored? at h
  split at h
  · cases h
  · next hc =>
    obtain rfl := Option.some.inj h
    simpa using hc

@[simp] theorem CellState.stored?_stored (c : CellState) :
    ((c.stored?).getD .empty).stored? = c.stored? := by
  cases h : c.stored? with
  | none => rfl
  | some c' => simp [stored?, isEmpty_of_stored? h]

/-- What a sheet stores after the edit that a state calls for. -/
def CellState.written? (c : CellState) : Option CellState := (CellEdit.ofState c).toState.stored?

theorem CellEdit.ofState_stored (c : CellState) : ofState ((c.stored?).getD .empty) = ofState c := by
  unfold CellState.stored?
  split
  · next h => rw [ofState_of_isEmpty h]; rfl
  · rfl

theorem CellEdit.ofState_written (c : CellState) : ofState ((c.written?).getD .empty) = ofState c :=
  (ofState_stored _).trans (ofState_toState_ofState c)

/-! ## Contents by position -/

namespace ByPosition

variable {α : Type}

theorem getElem?_insert (m : ByPosition α) (p q : Position) (a : α) :
    (m.insert p a)[q]? = if q = p then some a else m[q]? := by
  rw [Std.ExtTreeMap.getElem?_insert]
  simp only [Std.LawfulEqCmp.compare_eq_iff_eq, @eq_comm _ q p]

theorem getElem?_erase (m : ByPosition α) (p q : Position) :
    (m.erase p)[q]? = if q = p then none else m[q]? := by
  rw [Std.ExtTreeMap.getElem?_erase]
  simp only [Std.LawfulEqCmp.compare_eq_iff_eq, @eq_comm _ q p]

/-- The last entry of each position. -/
def ofEntries (entries : List (Position × α)) : ByPosition α :=
  entries.foldl (fun m e => m.insert e.1 e.2) ∅

@[simp] theorem ofEntries_nil : ofEntries ([] : List (Position × α)) = ∅ := rfl

theorem ofEntries_concat (entries : List (Position × α)) (e : Position × α) :
    ofEntries (entries ++ [e]) = (ofEntries entries).insert e.1 e.2 := by
  simp [ofEntries, List.foldl_append]

theorem getElem?_ofEntries_eq (entries : List (Position × α)) (q : Position) :
    (ofEntries entries)[q]? = (entries.findRev? (·.1 = q)).map Prod.snd := by
  rw [List.findRev?_eq_find?_reverse]
  induction entries using List.reverseRecOn with
  | nil => simp
  | append_singleton entries e ih =>
    rw [ofEntries_concat, getElem?_insert, ih, List.reverse_concat, List.find?_cons]
    by_cases h : e.1 = q
    · simp [h]
    · simp [h, Ne.symm h]

/-- Items as entries: the last one of a position counts. -/
theorem getElem?_ofEntries_items {β : Type} (f : β → Position) (g : β → α) (bs : List β)
    (q : Position) : (ofEntries (bs.map fun b => (f b, g b)))[q]? = (bs.findRev? (f · = q)).map g := by
  rw [getElem?_ofEntries_eq, Keyed.findRev?_map_eq]

theorem getElem?_ofEntries_eq_none {entries : List (Position × α)} {q : Position} :
    (ofEntries entries)[q]? = none ↔ q ∉ entries.map Prod.fst := by
  induction entries using List.reverseRecOn with
  | nil => simp
  | append_singleton entries e ih =>
    rw [ofEntries_concat, getElem?_insert]
    by_cases h : q = e.1
    · simp [h]
    · simpa [h] using ih

theorem mem_of_getElem?_ofEntries {entries : List (Position × α)} {q : Position} {a : α}
    (h : (ofEntries entries)[q]? = some a) : (q, a) ∈ entries := by
  induction entries using List.reverseRecOn with
  | nil => simp at h
  | append_singleton entries e ih =>
    rw [ofEntries_concat, getElem?_insert] at h
    by_cases hq : q = e.1
    · obtain rfl := Option.some.inj (by simpa [hq] using h)
      simp [hq]
    · exact List.mem_append_left _ (ih (by simpa [hq] using h))

/-- Of entries at different positions all count. -/
theorem getElem?_ofEntries_of_nodup {entries : List (Position × α)}
    (h : (entries.map Prod.fst).Nodup) {q : Position} {a : α} :
    (ofEntries entries)[q]? = some a ↔ (q, a) ∈ entries := by
  refine ⟨mem_of_getElem?_ofEntries, ?_⟩
  intro hmem
  cases hq : (ofEntries entries)[q]? with
  | none => exact absurd (List.mem_map_of_mem hmem) (getElem?_ofEntries_eq_none.mp hq)
  | some b =>
    have hpair := List.inj_on_of_nodup_map h (mem_of_getElem?_ofEntries hq) hmem rfl
    rw [(Prod.mk.inj hpair).2]

end ByPosition

/-! ## Sheets -/

namespace Sheet

@[simp] theorem name_put (s : Sheet) (p : Position) (c : CellState) : (s.put p c).name = s.name :=
  rfl

theorem ofState_read_put (s : Sheet) (p q : Position) (c : CellState) :
    CellEdit.ofState ((s.put p c).read q) =
      if q = p then .ofState c else .ofState (s.read q) := by
  -- an empty state takes the cell off the sheet
  by_cases hc : c.isEmpty
  · simp only [read, put, hc, if_true, ByPosition.getElem?_erase]
    split
    · exact (CellEdit.ofState_of_isEmpty hc).symm
    · rfl
  · rw [Bool.not_eq_true] at hc
    simp only [read, put, hc, Bool.false_eq_true, if_false, ByPosition.getElem?_insert]
    split <;> rfl

theorem getElem?_cells_put (s : Sheet) (p q : Position) (c : CellState) :
    (s.put p c).cells[q]? = if q = p then c.stored? else s.cells[q]? := by
  by_cases hc : c.isEmpty
  · simp only [put, CellState.stored?, hc, if_true, ByPosition.getElem?_erase]
  · rw [Bool.not_eq_true] at hc
    simp only [put, CellState.stored?, hc, Bool.false_eq_true, if_false, ByPosition.getElem?_insert]

theorem read_put (s : Sheet) (p q : Position) (c : CellState) :
    (s.put p c).read q = if q = p then (c.stored?).getD .empty else s.read q := by
  rw [read, getElem?_cells_put]
  split <;> rfl

theorem putAll_concat (s : Sheet) (cells : List (Position × CellState))
    (c : Position × CellState) : s.putAll (cells ++ [c]) = (s.putAll cells).put c.1 c.2 := by
  simp [putAll, List.foldl_append]

@[simp] theorem name_putAll (s : Sheet) (cells : List (Position × CellState)) :
    (s.putAll cells).name = s.name := by
  induction cells using List.reverseRecOn with
  | nil => rfl
  | append_singleton cells c ih => rw [putAll_concat, name_put, ih]

/-- Of cells that are set one after the other, what was set last is stored. -/
theorem getElem?_cells_putAll (s : Sheet) (cells : List (Position × CellState)) (q : Position) :
    (s.putAll cells).cells[q]? =
      ((ByPosition.ofEntries cells)[q]?.map CellState.stored?).getD s.cells[q]? := by
  induction cells using List.reverseRecOn with
  | nil => simp [putAll]
  | append_singleton cells c ih =>
    rw [putAll_concat, getElem?_cells_put, ih, ByPosition.ofEntries_concat,
      ByPosition.getElem?_insert]
    split <;> rfl

theorem read_putAll (s : Sheet) (cells : List (Position × CellState)) (q : Position) :
    (s.putAll cells).read q =
      ((cells.findRev? (·.1 = q)).map fun c => (c.2.stored?).getD .empty).getD (s.read q) := by
  rw [read, getElem?_cells_putAll, ByPosition.getElem?_ofEntries_eq]
  cases cells.findRev? (·.1 = q) <;> rfl

/-- Cells that are set one after the other hold what was set last. -/
theorem ofState_read_putAll (s : Sheet) (cells : List (Position × CellState)) (q : Position) :
    CellEdit.ofState ((s.putAll cells).read q) =
      .ofState (((ByPosition.ofEntries cells)[q]?).getD (s.read q)) := by
  induction cells using List.reverseRecOn with
  | nil => simp [putAll]
  | append_singleton cells c ih =>
    rw [putAll_concat, ofState_read_put, ih, ByPosition.ofEntries_concat,
      ByPosition.getElem?_insert]
    split <;> rfl

/-- A sheet made from cells one after the other stores what was given last. -/
theorem getElem?_cells_ofSnapshot (s : SheetSnapshot) (q : Position) :
    (ofSnapshot s).cells[q]? =
      (ByPosition.ofEntries (s.cells.map fun c => (c.position, c.state)))[q]? := by
  simp [ofSnapshot, ByPosition.ofEntries, List.foldl_map]

theorem read_ofSnapshot (s : SheetSnapshot) (q : Position) :
    (ofSnapshot s).read q =
      ((ByPosition.ofEntries (s.cells.map fun c => (c.position, c.state)))[q]?).getD .empty := by
  rw [read, getElem?_cells_ofSnapshot]

/-! ## Copies of sheets -/

theorem mem_cells_snapshot {s : Sheet} {id : String} {c : SnapshotCell} :
    c ∈ (s.snapshot id).cells ↔ s.cells[c.position]? = some c.state ∧ c.state.isEmpty = false := by
  simp only [snapshot, SheetSnapshot.ofCells, List.mem_map, List.mem_filter]
  constructor
  · rintro ⟨⟨p, state⟩, ⟨hmem, hstate⟩, rfl⟩
    exact ⟨Std.ExtTreeMap.mem_toList_iff_getElem?_eq_some.mp hmem, by simpa using hstate⟩
  · rintro ⟨hcell, hstate⟩
    exact ⟨(c.position, c.state), ⟨Std.ExtTreeMap.mem_toList_iff_getElem?_eq_some.mpr hcell,
      by simpa using hstate⟩, rfl⟩

theorem pairwise_cells_snapshot (s : Sheet) (id : String) :
    (s.snapshot id).cells.Pairwise fun c d => compare c.position d.position = .lt := by
  rw [snapshot, SheetSnapshot.ofCells, List.pairwise_map]
  exact Std.ExtTreeMap.ordered_keys_toList.filter _

end Sheet

end SheetSync
