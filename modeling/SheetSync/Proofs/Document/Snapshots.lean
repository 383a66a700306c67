import SheetSync.Proofs.Document.Order
/-!
The copy of a document. A document may store an empty cell that came with a copy, and it stores none
that is set, but neither its copy nor a lookup shows the difference: a copy has the sheets in the
order in which they were first named since a copy was loaded, and of each sheet the cells that are
not empty, in their order. Loading such a copy leaves the copy as it is, and of any other copy the
last sheet of an id counts, and of that the last cell of a position.

Main statement: `Document.snapshot_canonical`.
-/
namespace SheetSync

/-! ## Copies of sheets -/

namespace SheetSnapshot

/-- Cells by row and then by column, no position twice and none of them empty. -/
structure IsCanonical (s : SheetSnapshot) : Prop where
  ordered : s.cells.Pairwise fun c d => c.row < d.row ∨ (c.row = d.row ∧ c.col < d.col)
  nonempty : ∀ c ∈ s.cells, c.state.isEmpty = false

namespace IsCanonical

variable {s : SheetSnapshot}

theorem nodup (h : s.IsCanonical) : s.cells.Nodup := by
  refine h.ordered.imp ?_
  rintro c d hlt rfl
  omega

theorem nodup_positions (h : s.IsCanonical) :
    ((s.cells.map fun c => (c.position, c.state)).map Prod.fst).Nodup := by
  rw [List.map_map, List.Nodup, List.pairwise_map]
  refine h.ordered.imp ?_
  intro c d hlt heq
  simp only [Function.comp_apply, SnapshotCell.position, Position.mk.injEq] at heq
  omega

/-- Cells that are ordered are given by which they are. -/
theorem cells_eq {s' : SheetSnapshot} (h : s.IsCanonical) (h' : s'.IsCanonical)
    (hmem : ∀ c, c ∈ s.cells ↔ c ∈ s'.cells) : s.cells = s'.cells := by
  have hperm := (List.perm_ext_iff_of_nodup h.nodup h'.nodup).mpr hmem
  refine hperm.eq_of_pairwise ?_ h.ordered h'.ordered
  intro c d _ _ hcd hdc
  omega

end IsCanonical

end SheetSnapshot

namespace Sheet

theorem isCanonical_snapshot (s : Sheet) (id : String) : (s.snapshot id).IsCanonical where
  ordered := (s.pairwise_cells_snapshot id).imp Position.compare_eq_lt.mp
  nonempty _ hc := (mem_cells_snapshot.mp hc).2

/-- The sheet of a canonical copy has that copy. -/
theorem snapshot_ofSnapshot {s : SheetSnapshot} (h : s.IsCanonical) :
    (ofSnapshot s).snapshot s.id = s := by
  have hcells : ((ofSnapshot s).snapshot s.id).cells = s.cells := by
    refine ((ofSnapshot s).isCanonical_snapshot s.id).cells_eq h ?_
    intro c
    rw [mem_cells_snapshot, getElem?_cells_ofSnapshot,
      ByPosition.getElem?_ofEntries_of_nodup h.nodup_positions, List.mem_map]
    constructor
    · intro ⟨⟨d, hd, heq⟩, _⟩
      obtain ⟨row, col, state⟩ := c
      obtain ⟨row', col', state'⟩ := d
      simp only [SnapshotCell.position, Prod.mk.injEq, Position.mk.injEq] at heq
      obtain ⟨⟨rfl, rfl⟩, rfl⟩ := heq
      exact hd
    · intro hc
      exact ⟨⟨c, hc, rfl⟩, h.nonempty c hc⟩
  obtain ⟨id, name, cells⟩ := s
  exact congrArg (SheetSnapshot.mk id name) hcells

/-- What is read that is not empty is what is stored. -/
theorem read_eq_iff {s : Sheet} {p : Position} {c : CellState} (hc : c.isEmpty = false) :
    s.read p = c ↔ s.cells[p]? = some c := by
  unfold read
  cases s.cells[p]? with
  | none =>
    constructor
    · intro h
      subst h
      cases hc
    · intro h
      cases h
  | some c' => simp

/-- Of the cells of a copy the last one of a position is read. -/
theorem read_ofSnapshot_eq (s : SheetSnapshot) (p : Position) :
    (ofSnapshot s).read p =
      ((s.cells.findRev? (·.position = p)).map (·.state)).getD .empty := by
  rw [read_ofSnapshot, ByPosition.getElem?_ofEntries_items]

end Sheet

/-! ## Histories -/

/-- The sheets that were named since a copy was loaded, each as often as it was named. -/
def DocumentAction.names (earlier : List String) : DocumentAction → List String
  | edit _ _ [] => earlier
  | edit _ sheet (_ :: _) => earlier ++ [sheet]
  | load s => s.sheets.map (·.id)
  | markSaved => earlier

namespace Document

/-- The sheets that some actions named since a copy was loaded, each as often as it was named. -/
def named (as : List DocumentAction) : List String := as.foldl DocumentAction.names []

/-- What some actions make of the empty document. -/
def made (as : List DocumentAction) : Document := as.foldl (fun d a => (d.change a).1) {}

/-- Whether the content of a document is what some actions make of nothing, whoever listens. -/
def HasHistory (d : Document) (as : List DocumentAction) : Prop :=
  d.sheets = (made as).sheets ∧ d.isDirty = (made as).isDirty

instance (d : Document) (as : List DocumentAction) : Decidable (d.HasHistory as) :=
  inferInstanceAs (Decidable (_ ∧ _))

theorem named_concat (as : List DocumentAction) (a : DocumentAction) :
    named (as ++ [a]) = a.names (named as) := by
  simp [named]

theorem made_concat (as : List DocumentAction) (a : DocumentAction) :
    made (as ++ [a]) = ((made as).change a).1 := by
  simp [made]

theorem keys_loadSheets (s : Snapshot) :
    Keyed.keys (loadSheets s) = (s.sheets.map (·.id)).eraseDups := by
  rw [loadSheets, Keyed.keys_ofList, List.map_map]
  rfl

/-- Sheets stand where they were first named. -/
theorem keys_made (as : List DocumentAction) :
    Keyed.keys (made as).sheets = (named as).eraseDups := by
  induction as using List.reverseRecOn with
  | nil => rfl
  | append_singleton as a ih =>
    rw [made_concat, named_concat]
    cases a with
    | edit source sheet cells =>
      cases cells with
      | nil => exact ih
      | cons c cells => exact Keyed.keys_set_of_eraseDups ih sheet _
    | load s => exact keys_loadSheets s
    | markSaved => exact ih

theorem nodup_keys_made (as : List DocumentAction) : (Keyed.keys (made as).sheets).Nodup := by
  induction as using List.reverseRecOn with
  | nil => exact List.nodup_nil
  | append_singleton as a ih =>
    rw [made_concat]
    cases a with
    | edit source sheet cells =>
      cases cells with
      | nil => exact ih
      | cons c cells => exact Keyed.nodup_keys_set ih sheet _
    | load s => exact Keyed.nodup_keys_ofList _
    | markSaved => exact ih

namespace HasHistory

variable {d : Document} {as : List DocumentAction}

/-- A change depends on the content only. -/
theorem change (h : d.HasHistory as) (a : DocumentAction) :
    (d.change a).1.HasHistory (as ++ [a]) := by
  obtain ⟨hsheets, hdirty⟩ := h
  rw [HasHistory, made_concat]
  cases a with
  | edit source sheet cells =>
    cases cells with
    | nil => exact ⟨hsheets, hdirty⟩
    | cons c cells => simp [Document.change, editSheet, hsheets, hdirty]
  | load s => exact ⟨rfl, hdirty⟩
  | markSaved => exact ⟨hsheets, rfl⟩

theorem unsubscribeLabel (h : d.HasHistory as) (label : Option String) :
    (d.unsubscribeLabel label).HasHistory as := by
  unfold Document.unsubscribeLabel
  split
  · exact h
  · exact h

/-- Where no one answers, an action is all that is added. -/
theorem perform_quiet (h : d.HasHistory as) {a : DocumentAction}
    (hquiet : ∀ e, (d.change a).2 = some e → e.source = .user → ∀ l ∈ d.listeners, l.2.IsQuiet) :
    (d.perform a).1.HasHistory (as ++ [a]) :=
  (perform_quiet_keeps (I := fun f => f.HasHistory (as ++ [a]))
    (fun _ label hf => hf.unsubscribeLabel label) hquiet (h.change a)).1

/-- What is loaded is not answered. -/
theorem load (h : d.HasHistory as) (s : Snapshot) :
    (d.perform (.load s)).1.HasHistory (as ++ [.load s]) := by
  apply h.perform_quiet
  intro e he hsource
  obtain rfl := Option.some.inj he
  cases hsource

/-- An action adds itself and the answers to it. -/
theorem perform (h : d.HasHistory as) (a : DocumentAction) :
    ∃ answers, (d.perform a).1.HasHistory (as ++ a :: answers) := by
  have hchange := h.change a
  unfold Document.perform performWithin
  split
  · next d' heq =>
    rw [heq] at hchange
    exact ⟨[], hchange⟩
  · next d' e heq =>
    rw [heq] at hchange
    -- each answer adds to the history in turn
    have hanswer : ∀ (b : DocumentAction) (f : Document),
        (∃ answers, f.HasHistory (as ++ a :: answers)) →
        (∃ answers, (performWithin d.answerDepth b f).1.HasHistory (as ++ a :: answers)) ∧
          ∀ t ∈ (performWithin d.answerDepth b f).2, True := by
      intro b f hf
      refine performWithin_keeps (I := fun f => ∃ answers, f.HasHistory (as ++ a :: answers))
        (J := fun _ => True) ?_ ?_ ?_ _ b hf
      · intro f b ⟨answers, hf⟩
        exact ⟨answers ++ [b], by simpa using hf.change b⟩
      · intro f label ⟨answers, hf⟩
        exact ⟨answers, hf.unsubscribeLabel label⟩
      · exact fun _ _ _ _ _ _ => trivial
    refine (deliver_keeps (J := fun _ => True) ?_ hanswer (fun _ _ => trivial) ⟨[], hchange⟩).1
    intro f label ⟨answers, hf⟩
    exact ⟨answers, hf.unsubscribeLabel label⟩

end HasHistory

/-- Every document has come about by some actions. -/
theorem IsMade.exists_hasHistory {d : Document} (h : d.IsMade) : ∃ as, d.HasHistory as := by
  induction h with
  | empty => exact ⟨[], rfl, rfl⟩
  | forward _ ih => exact ih
  | watch _ _ _ _ ih => exact ih
  | unsubscribe _ _ ih => exact ih
  | perform _ a ih =>
    obtain ⟨as, has⟩ := ih
    obtain ⟨answers, h⟩ := has.perform a
    exact ⟨_, h⟩

/-! ## Copies of documents -/

namespace HasHistory

variable {d : Document} {as : List DocumentAction}

theorem nodup_keys (h : d.HasHistory as) : (Keyed.keys d.sheets).Nodup := by
  rw [h.1]
  exact nodup_keys_made as

theorem ids_snapshot (h : d.HasHistory as) :
    d.snapshot.sheets.map (·.id) = (named as).eraseDups := by
  rw [← keys_made, ← h.1, snapshot, List.map_map]
  rfl

theorem isCanonical_of_mem_snapshot {s : SheetSnapshot} (hs : s ∈ d.snapshot.sheets) :
    s.IsCanonical := by
  obtain ⟨⟨id, sheet⟩, -, rfl⟩ := List.mem_map.mp hs
  exact sheet.isCanonical_snapshot id

/-- What a document shows that is not empty is what its copy lists. -/
theorem cell_eq_iff (h : d.HasHistory as) (id : String) (p : Position) (c : CellState) :
    d.cell id p = c ∧ c.isEmpty = false ↔
      ∃ s ∈ d.snapshot.sheets, s.id = id ∧ ∃ x ∈ s.cells, x.position = p ∧ x.state = c := by
  constructor
  · intro hshown
    obtain ⟨hcell, hc⟩ := hshown
    cases hsheet : d.sheets.get? id with
    | none =>
      rw [cell, hsheet] at hcell
      subst hcell
      cases hc
    | some sheet =>
      rw [cell, hsheet] at hcell
      have hstored := (Sheet.read_eq_iff hc).mp hcell
      have hlisted : (⟨p.row, p.col, c⟩ : SnapshotCell) ∈ (sheet.snapshot id).cells :=
        Sheet.mem_cells_snapshot.mpr ⟨hstored, hc⟩
      have hmem : sheet.snapshot id ∈ d.snapshot.sheets :=
        List.mem_map.mpr ⟨_, Keyed.mem_of_get?_eq_some hsheet, rfl⟩
      exact ⟨_, hmem, rfl, _, hlisted, rfl, rfl⟩
  · intro hlisted
    obtain ⟨s, hs, hid, x, hx, hp, hc⟩ := hlisted
    obtain ⟨⟨id', sheet⟩, hmem, rfl⟩ := List.mem_map.mp hs
    obtain rfl : id' = id := hid
    obtain ⟨hstored, hempty⟩ := Sheet.mem_cells_snapshot.mp hx
    rw [hp, hc] at hstored
    rw [hc] at hempty
    have hget : d.sheets.get? id' = some sheet := Keyed.get?_of_mem h.nodup_keys hmem
    rw [cell, hget]
    exact ⟨(Sheet.read_eq_iff hempty).mpr hstored, hempty⟩

/-- A document that loads its own copy has the same copy again. -/
theorem snapshot_load (h : d.HasHistory as) :
    (d.perform (.load d.snapshot)).1.snapshot = d.snapshot := by
  have hsheets : (d.perform (.load d.snapshot)).1.sheets =
      d.sheets.map fun e => (e.1, .ofSnapshot (e.2.snapshot e.1)) := by
    rw [(h.load d.snapshot).1, made_concat]
    show loadSheets d.snapshot = _
    rw [loadSheets, snapshot, List.map_map]
    refine Keyed.ofList_of_nodup ?_
    rw [Keyed.keys, List.map_map]
    exact h.nodup_keys
  rw [snapshot, hsheets, snapshot, List.map_map]
  refine congrArg Snapshot.mk (List.map_congr_left ?_)
  intro e _
  exact Sheet.snapshot_ofSnapshot (e.2.isCanonical_snapshot e.1)

/-- Of a copy that is loaded the last sheet of an id counts. -/
theorem get?_sheets_load (h : d.HasHistory as) (t : Snapshot) (id : String) :
    (d.perform (.load t)).1.sheets.get? id =
      (t.sheets.findRev? (·.id = id)).map Sheet.ofSnapshot := by
  rw [(h.load t).1, made_concat]
  exact Keyed.get?_ofList_map SheetSnapshot.id Sheet.ofSnapshot t.sheets id

theorem name_load (h : d.HasHistory as) (t : Snapshot) {s : SheetSnapshot}
    (hs : s ∈ (d.perform (.load t)).1.snapshot.sheets) :
    (t.sheets.findRev? (·.id = s.id)).map (·.name) = some s.name := by
  obtain ⟨⟨id, sheet⟩, hmem, rfl⟩ := List.mem_map.mp hs
  have hget := Keyed.get?_of_mem (h.load t).nodup_keys hmem
  rw [h.get?_sheets_load] at hget
  obtain ⟨u, hu, rfl⟩ := Option.map_eq_some_iff.mp hget
  show (t.sheets.findRev? (·.id = id)).map (·.name) = some u.name
  rw [hu, Option.map_some]

theorem cell_load (h : d.HasHistory as) (t : Snapshot) (id : String) (p : Position) :
    (d.perform (.load t)).1.cell id p =
      (((t.sheets.findRev? (·.id = id)).bind fun s => s.cells.findRev? (·.position = p)).map
        (·.state)).getD .empty := by
  rw [cell, h.get?_sheets_load]
  cases t.sheets.findRev? (·.id = id) with
  | none => rfl
  | some s => exact Sheet.read_ofSnapshot_eq s p

end HasHistory

/-- Whatever has become of a document, its copy lists every sheet once, in the order in which the
sheets were first named since a copy was loaded, with its cells in their order and none that is
empty; the document shows something exactly at the cells that are listed, and shows what is listed.
Loading this copy changes neither the copy nor the sheets nor whether there is something to save.
Of any copy that is loaded, the last sheet of an id counts, and of that the last cell of a
position. -/
theorem snapshot_canonical {d : Document} {as : List DocumentAction} (h : d.HasHistory as) :
    (d.snapshot.sheets.map (·.id)).Nodup ∧
      d.snapshot.sheets.map (·.id) = (named as).eraseDups ∧
      d.sheetInfos = d.snapshot.sheets.map (fun s => ⟨s.id, s.name⟩) ∧
      (∀ s ∈ d.snapshot.sheets, s.IsCanonical) ∧
      (∀ id p c, d.cell id p = c ∧ c.isEmpty = false ↔
        ∃ s ∈ d.snapshot.sheets, s.id = id ∧ ∃ x ∈ s.cells, x.position = p ∧ x.state = c) ∧
      ((d.perform (.load d.snapshot)).1.snapshot = d.snapshot ∧
        (d.perform (.load d.snapshot)).1.sheetInfos = d.sheetInfos ∧
        (d.perform (.load d.snapshot)).1.isDirty = d.isDirty) ∧
      (∀ t : Snapshot,
        (d.perform (.load t)).1.snapshot.sheets.map (·.id) = (t.sheets.map (·.id)).eraseDups ∧
        (∀ s ∈ (d.perform (.load t)).1.snapshot.sheets,
          (t.sheets.findRev? (·.id = s.id)).map (·.name) = some s.name) ∧
        ∀ id p, (d.perform (.load t)).1.cell id p =
          (((t.sheets.findRev? (·.id = id)).bind fun s => s.cells.findRev? (·.position = p)).map
            (·.state)).getD .empty) ∧
      ∀ a, ∃ answers, (d.perform a).1.HasHistory (as ++ a :: answers) := by
  have hinfos : ∀ f : Document, f.sheetInfos = f.snapshot.sheets.map fun s => ⟨s.id, s.name⟩ := by
    intro f
    rw [snapshot, List.map_map]
    rfl
  have hnodup : (d.snapshot.sheets.map (·.id)).Nodup := by
    rw [snapshot, List.map_map]
    exact h.nodup_keys
  refine ⟨hnodup, h.ids_snapshot, hinfos d, fun s hs => HasHistory.isCanonical_of_mem_snapshot hs,
    h.cell_eq_iff, ⟨h.snapshot_load, ?_, ?_⟩, ?_, h.perform⟩
  · rw [hinfos, h.snapshot_load, ← hinfos]
  · rw [(h.load d.snapshot).2, made_concat]
    exact h.2.symm
  · intro t
    refine ⟨?_, fun s hs => h.name_load t hs, h.cell_load t⟩
    rw [(h.load t).ids_snapshot, named_concat]
    rfl

/-- A copy with a sheet that comes twice, a cell that comes twice and one that is empty. -/
def doubled : Snapshot := ⟨[⟨"A", "a", [⟨1, 0, .ofValue (.int 1)⟩]⟩, ⟨"B", "b", []⟩,
  ⟨"A", "c", [⟨2, 1, .ofValue (.int 1)⟩, ⟨0, 3, .ofValue (.int 2)⟩, ⟨2, 1, .ofValue (.int 3)⟩,
    ⟨5, 5, .empty⟩]⟩]⟩

/-- Edits before a copy is loaded and after it, one of them by an empty state. -/
def mixed : List DocumentAction := [.edit .user "Z" [(⟨0, 0⟩, .ofValue (.int 1))], .load doubled,
  .edit .external "C" [(⟨0, 0⟩, .empty)], .edit .user "B" [(⟨0, 0⟩, .ofValue (.int 4))]]

theorem snapshot_canonical_mixed : (({} : Document).performAll mixed).1.HasHistory mixed ∧
    (({} : Document).performAll mixed).1.snapshot.sheets.map (·.id) = ["A", "B", "C"] ∧
    (({} : Document).performAll mixed).1.snapshot.sheets.map (·.name) = ["c", "b", "C"] ∧
    (({} : Document).performAll mixed).1.cell "A" ⟨2, 1⟩ = .ofValue (.int 3) := by
  have h : (({} : Document).performAll mixed).1.HasHistory mixed := by decide +kernel
  obtain ⟨-, hids, -, -, hcell, -⟩ := snapshot_canonical h
  refine ⟨h, hids.trans (by decide +kernel), by decide +kernel, ?_⟩
  exact ((hcell "A" ⟨2, 1⟩ _).mpr (by decide +kernel)).1

end Document

end SheetSync
