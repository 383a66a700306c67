import SheetSync.Proofs.Store.Planned
/-!
What is planned for changes of cells, said without the planner: the changes off the sheet count for
nothing, the sheets come in the order in which the others first name them, and what is written on a
sheet is one table or one write each, depending on the rectangle around the changed cells. A local
store that has the sheets carries all of it out, unless a table is over the store's own limit.

Main statement: `Plan.writes_specified`.
-/
namespace SheetSync

namespace CellDelta

/-- Whether row and column are among those that a sheet can have. -/
def OnSheet (d : CellDelta) : Prop :=
  (0 ≤ d.row ∧ d.row ≤ 4294967295) ∧ 0 ≤ d.col ∧ d.col ≤ 4294967295

instance (d : CellDelta) : Decidable d.OnSheet := inferInstanceAs (Decidable (_ ∧ _))

/-- The changed position of a change on the sheet. -/
def place (d : CellDelta) : Position := ⟨d.row.toNat, d.col.toNat⟩

theorem position?_eq (d : CellDelta) : d.position? = if d.OnSheet then some d.place else none := by
  have hsize : (gridSize : Int) = 4294967296 := rfl
  have hiff : 0 ≤ d.row ∧ d.row < gridSize ∧ 0 ≤ d.col ∧ d.col < gridSize ↔ d.OnSheet := by
    unfold OnSheet
    omega
  exact if_congr hiff rfl rfl

theorem filterMap_position? {α : Type} (f : CellDelta → Position → α) (deltas : List CellDelta) :
    (deltas.filterMap fun d => d.position?.map (f d)) =
      (deltas.filter (·.OnSheet)).map fun d => f d d.place := by
  induction deltas with
  | nil => rfl
  | cons d deltas ih =>
    rw [List.filterMap_cons, position?_eq, ih]
    by_cases h : d.OnSheet
    · simp [h]
    · simp [h]

end CellDelta

namespace CellEdit

/-- Writes a value or a formula, never both, and no formula without a text. -/
def IsPlain (e : CellEdit) : Prop := (e.value = .null ∨ e.formula = none) ∧ e.formula ≠ some ""

theorem isPlain_ofState (s : CellState) : (ofState s).IsPlain := by
  cases h : s.formula? with
  | none =>
    rw [ofState_of_formula?_eq_none h]
    exact ⟨.inr rfl, nofun⟩
  | some f =>
    rw [ofState_of_formula?_eq_some h]
    refine ⟨.inl rfl, fun hf => ?_⟩
    obtain rfl := Option.some.inj hf
    simp [CellState.formula?] at h

end CellEdit

/-- All edits that a write carries, wherever they go. -/
def Write.edits : Write → List CellEdit
  | range _ _ values => values.flatten
  | point _ _ e => [e]

/-! ## The plan for one sheet -/

namespace Plan

/-- Whether so many changes fill a rectangle of a size that is written as one table. -/
def Fills (maxArea count : Nat) (rect : Rect) : Prop :=
  rect.area = count ∧ 1 < rect.area ∧ rect.area ≤ maxArea

/-- What is planned for changes on one sheet. -/
inductive IsPlanFor (maxArea : Nat) (sheet : String) (deltas : List CellDelta) : List Write → Prop
  /-- One table over the smallest rectangle around the changes, which they fill by their number.
  Each cell of it becomes what its last change calls for, and is cleared where there is none. -/
  | table {rect : Rect} {values : List (List CellEdit)}
      (haround : rect.IsAround fun p => ∃ d ∈ deltas, d.place = p)
      (hfills : Fills maxArea deltas.length rect)
      (hrows : values.length = rect.rows) (hcols : ∀ line ∈ values, line.length = rect.cols)
      (hvalues : ∀ p, rect.contains p → rect.entry? values p =
        some (match deltas.findRev? (·.place = p) with
          | some d => .ofState d.after
          | none => .clear)) :
    IsPlanFor maxArea sheet deltas [.range sheet rect values]
  /-- One write for each change, in their order. -/
  | points (hsparse : ∀ rect : Rect, (rect.IsAround fun p => ∃ d ∈ deltas, d.place = p) →
        ¬ Fills maxArea deltas.length rect) :
    IsPlanFor maxArea sheet deltas (deltas.map fun d => .point sheet d.place (.ofState d.after))

/-- The edits that changes on one sheet call for. -/
def editsOf (deltas : List CellDelta) : Edits := deltas.map fun d => (d.place, .ofState d.after)

theorem isPlanFor_sheetWrites {maxArea : Nat} {sheet : String} {deltas : List CellDelta}
    (hne : deltas ≠ []) :
    IsPlanFor maxArea sheet deltas (sheetWrites maxArea sheet (editsOf deltas)) := by
  have hplaces : (editsOf deltas).map Prod.fst = deltas.map (·.place) := by
    rw [editsOf, List.map_map]
    rfl
  unfold sheetWrites
  split
  · next h =>
    rw [Rect.around?_eq_none, hplaces, List.map_eq_nil_iff] at h
    exact absurd h hne
  · next rect hrect =>
    have haround : rect.IsAround fun p => ∃ d ∈ deltas, d.place = p := by
      apply (Rect.isAround_of_around? hrect).congr
      intro p
      rw [hplaces, List.mem_map]
    have hdense : isDense rect (editsOf deltas).length maxArea ↔
        Fills maxArea deltas.length rect := by
      simp [isDense, Fills, editsOf, and_assoc]
    split
    · next h =>
      rw [Plan.table]
      refine .table haround (hdense.mp h) (Rect.length_grid ..)
        (fun line hline => Rect.length_of_mem_grid hline) fun p hp => ?_
      rw [Rect.entry?_grid, if_pos hp, lastEdits_eq, editsOf, ByPosition.getElem?_ofEntries_items]
      cases deltas.findRev? (fun d => decide (d.place = p)) <;> rfl
    · next h =>
      have hpoints : (editsOf deltas).map (fun q => Write.point sheet q.1 q.2) =
          deltas.map fun d => .point sheet d.place (.ofState d.after) := List.map_map
      refine hpoints ▸ .points fun other hother hfills => h (hdense.mpr ?_)
      rw [haround.unique hother]
      exact hfills

/-- All edits that are planned are called for by a state. -/
theorem exists_ofState_of_mem_edits {maxArea : Nat} {sheet : String} {deltas : List CellDelta}
    {ws : List Write} (h : IsPlanFor maxArea sheet deltas ws) {w : Write} (hw : w ∈ ws)
    {e : CellEdit} (he : e ∈ w.edits) : ∃ c, e = .ofState c := by
  cases h with
  | points =>
    obtain ⟨d, -, rfl⟩ := List.mem_map.mp hw
    rw [List.mem_singleton.mp he]
    exact ⟨d.after, rfl⟩
  | @table rect values haround hfills hrows hcols hvalues =>
    rw [List.mem_singleton.mp hw, Write.edits, Rect.eq_grid_entry? hrows hcols fun _ => e,
      Rect.mem_flatten_grid] at he
    obtain ⟨p, hp, he⟩ := he
    rw [hvalues p hp, Option.getD_some] at he
    rw [← he]
    cases deltas.findRev? (·.place = p) with
    | some d => exact ⟨d.after, rfl⟩
    | none => exact ⟨.empty, rfl⟩

/-! ## Plans for all sheets -/

/-- The sheets that changes name, in the order of their first change. -/
structure AreSheetsOf (sheets : List String) (deltas : List CellDelta) : Prop where
  mem : ∀ id, id ∈ sheets ↔ ∃ d ∈ deltas, d.sheet = id
  order : sheets.Pairwise fun a b => deltas.findIdx (·.sheet = a) < deltas.findIdx (·.sheet = b)

theorem areSheetsOf (deltas : List CellDelta) :
    AreSheetsOf (sheetsOf deltas) (deltas.filter (·.OnSheet)) := by
  rw [sheetsOf, CellDelta.filterMap_position? fun d _ => d.sheet]
  generalize deltas.filter (·.OnSheet) = left
  have hidx : ∀ id, (left.map (·.sheet)).idxOf id = left.findIdx (·.sheet = id) := by
    intro id
    rw [List.idxOf, List.findIdx_map]
    rfl
  refine ⟨fun id => ?_, ?_⟩
  · rw [List.mem_eraseDups, List.mem_map]
  · simpa only [hidx] using pairwise_eraseDups (left.map (·.sheet))

theorem editsOn_eq (id : String) (deltas : List CellDelta) :
    editsOn id deltas = editsOf ((deltas.filter (·.OnSheet)).filter (·.sheet = id)) := by
  induction deltas with
  | nil => rfl
  | cons d deltas ih =>
    unfold editsOn at ih ⊢
    rw [List.filterMap_cons, CellDelta.position?_eq, ih]
    by_cases hd : d.OnSheet
    · by_cases hsheet : d.sheet = id
      · simp [hd, hsheet, editsOf]
      · simp [hd, hsheet]
    · simp [hd]

end Plan

namespace Workbook

/-- A write that fits some bound is received, unless the bound is beyond the limit of a call. -/
theorem receive_of_fits_bound {b : Workbook} {w : Write} {bound : Nat} (hfits : w.Fits bound)
    (hsheet : (b.sheets.get? w.sheet).isSome) :
    b.receive w = .ok (b.after w) ∨ rangeLimit < bound ∧
      ∃ rect, b.receive w = .error (.rangeTooLarge rect rect.area rangeLimit) := by
  cases w with
  | point sheet p e => exact .inl (receive_eq_ok trivial hsheet)
  | range sheet rect values =>
    obtain ⟨hvalid, harea, hshape⟩ := hfits
    by_cases hlimit : rect.area ≤ rangeLimit
    · exact .inl (receive_eq_ok ⟨hvalid, hlimit, hshape⟩ hsheet)
    · refine .inr ⟨by omega, rect, ?_⟩
      have hcheck : checkRange rect = .error (.rangeTooLarge rect rect.area rangeLimit) := by
        simp [checkRange, hvalid, Nat.lt_of_not_le hlimit]
      rw [receive, hcheck]
      rfl

end Workbook

/-- What is planned for any changes and any bound: the changes on the sheet that are left, grouped
by sheet in the order in which they name them, and for each sheet one table or one write each. No
edit has both a value and a formula. A local store with the sheet carries a planned write out, or it
finds a table too large that the bound allowed beyond the limit of a call. -/
theorem Plan.writes_specified (maxArea : Nat) (deltas : List CellDelta) :
    (∃ (sheets : List String) (plan : String → List Write),
      AreSheetsOf sheets (deltas.filter (·.OnSheet)) ∧
      (∀ id ∈ sheets,
        IsPlanFor maxArea id ((deltas.filter (·.OnSheet)).filter (·.sheet = id)) (plan id)) ∧
      writes maxArea deltas = sheets.flatMap plan) ∧
    (∀ w ∈ writes maxArea deltas, ∀ e ∈ w.edits, e.IsPlain) ∧
    ∀ w ∈ writes maxArea deltas, ∀ (s : Store) (b : Workbook), s.Holds b →
      (b.sheets.get? w.sheet).isSome →
      ((Store.apply w).perform s).1 = .ok () ∨ rangeLimit < maxArea ∧
        ∃ rect, ((Store.apply w).perform s).1 = .error (.rangeTooLarge rect rect.area rangeLimit) := by
  have hsheets := areSheetsOf deltas
  have hplan : ∀ id ∈ sheetsOf deltas,
      IsPlanFor maxArea id ((deltas.filter (·.OnSheet)).filter (·.sheet = id))
        (sheetWrites maxArea id (editsOn id deltas)) := by
    intro id hid
    obtain ⟨d, hd, hdid⟩ := (hsheets.mem id).mp hid
    rw [editsOn_eq]
    refine isPlanFor_sheetWrites (List.ne_nil_of_mem (List.mem_filter.mpr ⟨hd, ?_⟩))
    simpa using hdid
  refine ⟨⟨_, _, hsheets, hplan, writes_eq maxArea deltas⟩, ?_, ?_⟩
  · intro w hw e he
    rw [writes_eq, List.mem_flatMap] at hw
    obtain ⟨id, hid, hw⟩ := hw
    obtain ⟨c, rfl⟩ := exists_ofState_of_mem_edits (hplan id hid) hw he
    exact CellEdit.isPlain_ofState c
  · intro w hw s b hs hsheet
    rw [hs.perform_apply w]
    rcases Workbook.receive_of_fits_bound (fits_of_mem_writes hw) hsheet with h | ⟨hbound, rect, h⟩
    · left
      rw [h]
      rfl
    · right
      refine ⟨hbound, rect, ?_⟩
      rw [h]
      rfl

/-- The second sheet is named first by a change that is left; the first one's changes repeat a
position and leave a gap. -/
example :
    Plan.writes 10 [⟨"A", -1, 0, .empty, .ofValue (.int 1)⟩, ⟨"B", 4, 4, .empty, .ofFormula "=1"⟩,
        ⟨"A", 0, 1, .empty, .ofValue (.int 2)⟩, ⟨"A", 0, 0, .empty, .ofValue (.int 3)⟩,
        ⟨"A", 0, 2, .empty, .ofValue (.int 4)⟩, ⟨"A", 4294967296, 0, .empty, .empty⟩,
        ⟨"A", 1, 0, .empty, .ofValue (.int 5)⟩, ⟨"A", 0, 1, .empty, .ofValue (.int 6)⟩,
        ⟨"A", 0, 2, .empty, { value := .int 7, formula := some "" }⟩] =
      [.point "B" ⟨4, 4⟩ ⟨.null, some "=1"⟩,
        .range "A" ⟨0, 0, 1, 2⟩ [[⟨.int 3, none⟩, ⟨.int 6, none⟩, ⟨.int 7, none⟩],
          [⟨.int 5, none⟩, .clear, .clear]]] := by
  decide +kernel

end SheetSync
