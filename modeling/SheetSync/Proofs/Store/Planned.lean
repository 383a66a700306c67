import SheetSync.Proofs.Session.Limits
import SheetSync.Proofs.Store.Reopen
/-!
Plans against writing cell by cell. A local store that carries out what was planned for some changes
holds what it would hold if the changed cells were written one by one, but for gaps: where a table
is planned for changes of which some name a position twice, it covers positions that no change
names, and clears them.

Main statement: `Store.planned_as_points`.
-/
namespace SheetSync

/-! ## The edits of one sheet -/

namespace Plan

/-- The edits that changes call for on one sheet, in their order. -/
def editsOn (sheet : String) (deltas : List CellDelta) : Edits :=
  deltas.filterMap fun d =>
    if d.sheet = sheet then d.position?.map fun p => (p, .ofState d.after) else none

/-- The writes of the changed cells one by one, in the order of their changes. -/
def points (deltas : List CellDelta) : List Write :=
  deltas.filterMap fun d => d.position?.map fun p => .point d.sheet p (.ofState d.after)

theorem mem_positions_editsOn {sheet : String} {deltas : List CellDelta} {p : Position} :
    p ∈ (editsOn sheet deltas).map Prod.fst ↔
      ∃ d ∈ deltas, d.sheet = sheet ∧ d.position? = some p := by
  simp only [editsOn, List.mem_map, List.mem_filterMap]
  constructor
  · rintro ⟨e, ⟨d, hd, he⟩, rfl⟩
    split at he
    · next hsheet =>
      obtain ⟨q, hq, rfl⟩ := Option.map_eq_some_iff.mp he
      exact ⟨d, hd, hsheet, hq⟩
    · cases he
  · rintro ⟨d, hd, hsheet, hp⟩
    exact ⟨(p, .ofState d.after), ⟨d, hd, by rw [if_pos hsheet, hp]; rfl⟩, rfl⟩

theorem filter_points (sheet : String) (deltas : List CellDelta) :
    (points deltas).filter (·.sheet = sheet) =
      (editsOn sheet deltas).map fun (p, e) => Write.point sheet p e := by
  induction deltas with
  | nil => rfl
  | cons d deltas ih =>
    simp only [points, editsOn] at ih ⊢
    cases hp : d.position? with
    | none =>
      simp only [List.filterMap_cons, hp, Option.map_none, ite_self]
      exact ih
    | some p =>
      simp only [List.filterMap_cons, hp, Option.map_some]
      by_cases hsheet : d.sheet = sheet
      · subst hsheet
        rw [if_pos rfl, List.filter_cons_of_pos (by simp [Write.sheet]), ih]
        rfl
      · rw [if_neg hsheet, List.filter_cons_of_neg (by simp [Write.sheet, hsheet]), ih]

theorem idxOf_lt_of_filter {names : List String} {keep : String → Bool} {a b : String}
    (ha : keep a) (hb : keep b)
    (h : (names.filter keep).idxOf a < (names.filter keep).idxOf b) :
    names.idxOf a < names.idxOf b := by
  induction names with
  | nil => simp at h
  | cons name names ih =>
    by_cases hna : name = a
    · subst hna
      have hne : name ≠ b := by
        rintro rfl
        exact Nat.lt_irrefl _ h
      rw [List.idxOf_cons_self, List.idxOf_cons_ne _ hne]
      exact Nat.succ_pos _
    · by_cases hname : keep name
      · rw [List.filter_cons_of_pos hname, List.idxOf_cons_ne _ hna] at h
        have hnb : name ≠ b := by
          rintro rfl
          rw [List.idxOf_cons_self] at h
          cases h
        rw [List.idxOf_cons_ne _ hnb] at h
        rw [List.idxOf_cons_ne _ hna, List.idxOf_cons_ne _ hnb]
        exact Nat.succ_lt_succ (ih (Nat.lt_of_succ_lt_succ h))
      · have hnb : name ≠ b := fun heq => hname (heq ▸ hb)
        rw [List.filter_cons_of_neg hname] at h
        rw [List.idxOf_cons_ne _ hna, List.idxOf_cons_ne _ hnb]
        exact Nat.succ_lt_succ (ih h)

/-- Doubles are taken out from the second of them on. -/
theorem pairwise_eraseDups (names : List String) :
    names.eraseDups.Pairwise fun a b => names.idxOf a < names.idxOf b := by
  match names with
  | [] => exact .nil
  | name :: names =>
    rw [List.eraseDups_cons]
    -- none of the others is the first name
    have hne : ∀ other ∈ (names.filter fun other => !other == name).eraseDups,
        (!other == name) ∧ name ≠ other := by
      intro other hother
      have hkept := (List.mem_filter.mp (List.mem_eraseDups.mp hother)).2
      refine ⟨hkept, ?_⟩
      rintro rfl
      simp at hkept
    refine List.pairwise_cons.mpr ⟨fun other hother => ?_, ?_⟩
    · rw [List.idxOf_cons_self, List.idxOf_cons_ne _ (hne other hother).2]
      exact Nat.succ_pos _
    · refine (pairwise_eraseDups _).imp_of_mem fun {a b} ha hb h => ?_
      rw [List.idxOf_cons_ne _ (hne a ha).2, List.idxOf_cons_ne _ (hne b hb).2]
      exact Nat.succ_lt_succ (idxOf_lt_of_filter (hne a ha).1 (hne b hb).1 h)
termination_by names.length
decreasing_by exact Nat.lt_succ_of_le (List.length_filter_le ..)

theorem nodup_eraseDups (names : List String) : names.eraseDups.Nodup := by
  refine (pairwise_eraseDups names).imp ?_
  rintro a b h rfl
  exact Nat.lt_irrefl _ h

/-- Of names that differ, at most one gives what only that one gives. -/
theorem flatMap_of_nodup {β : Type} {sheets : List String} (hnodup : sheets.Nodup) {sheet : String}
    {f : String → List β} (hf : ∀ other, other ≠ sheet → f other = []) :
    sheets.flatMap f = if sheet ∈ sheets then f sheet else [] := by
  induction sheets with
  | nil => rfl
  | cons other sheets ih =>
    obtain ⟨hother, hnodup⟩ := List.nodup_cons.mp hnodup
    rw [List.flatMap_cons, ih hnodup]
    by_cases h : other = sheet
    · subst h
      simp [hother]
    · simp [hf other h, Ne.symm h]

/-- The sheets that changes name, without those off the sheet, each of them once. -/
def sheetsOf (deltas : List CellDelta) : List String :=
  (deltas.filterMap fun d => d.position?.map fun _ => d.sheet).eraseDups

theorem mem_sheetsOf {id : String} {deltas : List CellDelta} :
    id ∈ sheetsOf deltas ↔ ∃ d ∈ deltas, d.sheet = id ∧ d.position?.isSome := by
  rw [sheetsOf, List.mem_eraseDups, List.mem_filterMap]
  refine exists_congr fun d => and_congr_right fun _ => ?_
  cases d.position? <;> simp

/-- Writes are planned sheet by sheet. -/
theorem writes_eq (maxArea : Nat) (deltas : List CellDelta) :
    writes maxArea deltas =
      (sheetsOf deltas).flatMap fun id => sheetWrites maxArea id (editsOn id deltas) := by
  have hedits : ∀ id, ((deltas.filterMap fun d => d.position?.map fun p =>
        (d.sheet, p, CellEdit.ofState d.after)).filterMap fun e =>
          if e.1 = id then some e.2 else none) = editsOn id deltas := by
    intro id
    rw [List.filterMap_filterMap, editsOn]
    congr 1
    funext d
    cases d.position? <;> simp
  simp only [writes, bySheet, List.flatMap_map, hedits, List.map_filterMap, Option.map_map,
    sheetsOf, Function.comp_def]

/-- What is planned for one sheet is planned from the edits of that sheet. -/
theorem filter_writes (maxArea : Nat) (sheet : String) (deltas : List CellDelta) :
    (writes maxArea deltas).filter (·.sheet = sheet) =
      sheetWrites maxArea sheet (editsOn sheet deltas) := by
  have hother : ∀ other, other ≠ sheet →
      (sheetWrites maxArea other (editsOn other deltas)).filter (·.sheet = sheet) = [] := by
    intro other hne
    refine List.filter_eq_nil_iff.mpr fun w hw => ?_
    simpa [sheet_of_mem_sheetWrites hw] using hne
  have hnodup : (sheetsOf deltas).Nodup := nodup_eraseDups _
  rw [writes_eq, List.filter_flatMap, flatMap_of_nodup hnodup hother]
  split
  · refine List.filter_eq_self.mpr fun w hw => ?_
    simpa using sheet_of_mem_sheetWrites hw
  · next hnot =>
    -- a sheet that no change names has no edits
    have hnil : editsOn sheet deltas = [] := by
      refine List.map_eq_nil_iff (f := Prod.fst).mp ?_
      refine List.eq_nil_iff_forall_not_mem.mpr fun p hp => hnot ?_
      obtain ⟨d, hd, hsheet, hpos⟩ := mem_positions_editsOn.mp hp
      exact mem_sheetsOf.mpr ⟨d, hd, hsheet, by rw [hpos]; rfl⟩
    rw [hnil]
    rfl

theorem fits_of_mem_points {limit : Nat} {deltas : List CellDelta} :
    ∀ w ∈ points deltas, w.Fits limit := by
  intro w hw
  obtain ⟨d, -, hd⟩ := List.mem_filterMap.mp hw
  obtain ⟨p, -, rfl⟩ := Option.map_eq_some_iff.mp hd
  trivial

theorem exists_of_mem_points {deltas : List CellDelta} {w : Write} (hw : w ∈ points deltas) :
    ∃ d ∈ deltas, d.position?.isSome ∧ d.sheet = w.sheet := by
  obtain ⟨d, hd, hw⟩ := List.mem_filterMap.mp hw
  obtain ⟨p, hp, rfl⟩ := Option.map_eq_some_iff.mp hw
  exact ⟨d, hd, by rw [hp]; rfl, rfl⟩

/-- A planned write is on a sheet that some change names. -/
theorem exists_of_mem_writes {maxArea : Nat} {deltas : List CellDelta} {w : Write}
    (hw : w ∈ writes maxArea deltas) :
    ∃ d ∈ deltas, d.position?.isSome ∧ d.sheet = w.sheet := by
  have hsheet : w ∈ sheetWrites maxArea w.sheet (editsOn w.sheet deltas) := by
    rw [← filter_writes]
    exact List.mem_filter.mpr ⟨hw, decide_eq_true rfl⟩
  have hne : editsOn w.sheet deltas ≠ [] := by
    rintro hnil
    rw [hnil] at hsheet
    cases hsheet
  obtain ⟨e, he⟩ := List.exists_mem_of_ne_nil _ hne
  obtain ⟨d, hd, hsheet, hp⟩ := mem_positions_editsOn.mp (List.mem_map_of_mem he)
  exact ⟨d, hd, by rw [hp]; rfl, hsheet⟩

/-! ## Gaps -/

/-- Whether a position is in a table that is planned for edits of other positions. -/
def IsGap (maxArea : Nat) (edits : Edits) (p : Position) : Prop :=
  p ∉ edits.map Prod.fst ∧ ∃ rect, Rect.around? (edits.map Prod.fst) = some rect ∧
    isDense rect edits.length maxArea ∧ rect.contains p

/-- A table has a gap only if it names a position twice. -/
theorem IsGap.not_nodup {maxArea : Nat} {edits : Edits} {p : Position} (h : IsGap maxArea edits p) :
    ¬ (edits.map Prod.fst).Nodup := by
  obtain ⟨hp, rect, hrect, hdense, hin⟩ := h
  intro hnodup
  simp only [isDense, Bool.and_eq_true, decide_eq_true_eq] at hdense
  refine hp (mem_of_dense hnodup (fun q hq => Rect.contains_of_around? hrect hq) ?_ hin)
  rw [List.length_map]
  exact hdense.1.1

theorem getElem?_ofEntries_isSome {edits : Edits} {q : Position}
    (hq : q ∈ edits.map Prod.fst) : ∃ e, (ByPosition.ofEntries edits)[q]? = some e :=
  Option.ne_none_iff_exists'.mp (mt ByPosition.getElem?_ofEntries_eq_none.mp (not_not.mpr hq))

/-- What the table over the edited positions leaves at a position. -/
theorem getElem?_cells_onto_table {sheet : String} {edits : Edits} {rect : Rect} (s : Sheet)
    (hrect : Rect.around? (edits.map Prod.fst) = some rect) (q : Position) :
    ((Write.range sheet rect (table rect edits)).onto s).cells[q]? =
      if rect.contains q ∧ q ∉ edits.map Prod.fst then none
      else (s.putAll (edits.map fun e => (e.1, e.2.toState))).cells[q]? := by
  have htable : ((Write.range sheet rect (table rect edits)).onto s).cells[q]? =
      if rect.contains q then (((ByPosition.ofEntries edits)[q]?).getD .clear).toState.stored?
      else s.cells[q]? := by
    simp only [Write.onto, Write.entries, table, Rect.entries_grid, List.map_map,
      Function.comp_def, lastEdits_eq]
    rw [Sheet.getElem?_cells_putAll, ByPosition.getElem?_ofEntries_graph]
    simp only [Rect.mem_positions]
    split <;> rfl
  rw [htable, Sheet.getElem?_cells_putAll, ByPosition.getElem?_ofEntries_map]
  by_cases hq : q ∈ edits.map Prod.fst
  · obtain ⟨e, he⟩ := getElem?_ofEntries_isSome hq
    rw [if_pos (Rect.contains_of_around? hrect hq), if_neg (not_and_not_right.mpr fun _ => hq), he]
    rfl
  · rw [ByPosition.getElem?_ofEntries_eq_none.mpr hq]
    simp only [hq, not_false_eq_true, and_true]
    split <;> rfl

/-- A sheet that takes the writes planned for it stores what the last edit of a position sets, and
nothing in a gap. -/
theorem getElem?_cells_sheetWrites (maxArea : Nat) (sheet : String) (edits : Edits) (s : Sheet)
    (q : Position) :
    (IsGap maxArea edits q →
        ((sheetWrites maxArea sheet edits).foldl (fun s w => w.onto s) s).cells[q]? = none) ∧
      (¬ IsGap maxArea edits q →
        ((sheetWrites maxArea sheet edits).foldl (fun s w => w.onto s) s).cells[q]? =
          (s.putAll (edits.map fun e => (e.1, e.2.toState))).cells[q]?) := by
  unfold sheetWrites
  cases hrect : Rect.around? (edits.map Prod.fst) with
  | none =>
    have hnil := List.map_eq_nil_iff.mp (Rect.around?_eq_none.mp hrect)
    subst hnil
    constructor
    · rintro ⟨-, rect, h, -⟩
      cases h
    · intro _
      rfl
  | some rect =>
    dsimp only
    by_cases hdense : isDense rect edits.length maxArea
    case neg =>
      rw [if_neg hdense, foldl_onto_points]
      refine ⟨?_, fun _ => rfl⟩
      rintro ⟨-, r, hr, hgap, -⟩
      obtain rfl := Option.some.inj (hrect.symm.trans hr)
      exact absurd hgap hdense
    rw [if_pos hdense, List.foldl_cons, List.foldl_nil, getElem?_cells_onto_table s hrect]
    constructor
    · rintro ⟨hq, r, hr, -, hin⟩
      obtain rfl := Option.some.inj (hrect.symm.trans hr)
      exact if_pos ⟨hin, hq⟩
    · intro hgap
      exact if_neg fun ⟨hin, hq⟩ => hgap ⟨hq, rect, hrect, hdense, hin⟩

end Plan

/-! ## Workbooks -/

namespace Workbook

variable {deltas : List CellDelta} {maxArea : Nat}

/-- What a workbook stores after the planned writes, against the changed cells one by one: the same
but for gaps, in which nothing is left. -/
theorem cell?_foldl_after_writes (b : Workbook) (hlimit : maxArea ≤ rangeLimit) (id : String)
    (p : Position) :
    (Plan.IsGap maxArea (Plan.editsOn id deltas) p →
        ((Plan.writes maxArea deltas).foldl after b).cell? id p = none) ∧
      (¬ Plan.IsGap maxArea (Plan.editsOn id deltas) p →
        ((Plan.writes maxArea deltas).foldl after b).cell? id p =
          ((Plan.points deltas).foldl after b).cell? id p) := by
  have hwrites : ∀ w ∈ Plan.writes maxArea deltas, w.Fits rangeLimit := fun w hw =>
    (Plan.fits_of_mem_writes hw).mono hlimit
  simp only [cell?, get?_sheets_foldl_after_filter hwrites,
    get?_sheets_foldl_after_filter Plan.fits_of_mem_points, Plan.filter_writes, Plan.filter_points,
    Plan.foldl_onto_points]
  cases b.sheets.get? id with
  | none => exact ⟨fun _ => rfl, fun _ => rfl⟩
  | some s => exact Plan.getElem?_cells_sheetWrites maxArea id _ s p

/-- Writing cell by cell leaves what no change names. -/
theorem cell?_foldl_after_points (b : Workbook) {id : String} {p : Position}
    (h : ∀ d ∈ deltas, d.sheet = id → d.position? ≠ some p) :
    ((Plan.points deltas).foldl after b).cell? id p = b.cell? id p := by
  have hnone : (ByPosition.ofEntries (Plan.editsOn id deltas))[p]? = none := by
    refine ByPosition.getElem?_ofEntries_eq_none.mpr fun hp => ?_
    obtain ⟨d, hd, hsheet, hpos⟩ := Plan.mem_positions_editsOn.mp hp
    exact h d hd hsheet hpos
  simp only [cell?, get?_sheets_foldl_after_filter Plan.fits_of_mem_points, Plan.filter_points,
    Plan.foldl_onto_points]
  cases b.sheets.get? id with
  | none => rfl
  | some s =>
    simp only [Option.map_some, Option.bind_some]
    rw [Sheet.getElem?_cells_putAll, ByPosition.getElem?_ofEntries_map, hnone]
    rfl

end Workbook

/-! ## Stores -/

namespace Store

/-- Carries out writes one after the other, up to the first that is refused. -/
def applyAll : List Write → StoreM Unit
  | [] => return
  | w :: ws => do
    apply w
    applyAll ws

variable {s : Store} {b : Workbook}

/-- A local store carries out all writes that fit their ranges on sheets that are there. -/
theorem Holds.perform_applyAll {ws : List Write} (h : s.Holds b)
    (hws : ∀ w ∈ ws, w.Fits rangeLimit ∧ (b.sheets.get? w.sheet).isSome) :
    (applyAll ws).perform s = (.ok (), { s with workbook := some (ws.foldl Workbook.after b) }) := by
  suffices happly : Achieves (fun _ s (_ : Unit) t _ => t = s) (applyAll ws) s () fun r t _ =>
      (r, t) = (.ok (), { s with workbook := some (ws.foldl Workbook.after b) }) from
    achieves_attempt.mp happly
  induction ws generalizing s b with
  | nil =>
    refine (achieves_pure _).mpr ?_
    rw [List.foldl_nil, ← h.workbook]
  | cons w ws ih =>
    obtain ⟨hfits, hsheet⟩ := hws w List.mem_cons_self
    refine achieves_bind.mpr ((achieves_apply_iff h.watch h.kind h.workbook w).mpr ?_)
    rw [Workbook.receive_eq_ok hfits hsheet]
    refine ih (s := { s with workbook := some (b.after w) }) ⟨h.kind, h.watch, rfl⟩ fun v hv => ?_
    obtain ⟨hfits', hsheet'⟩ := hws v (List.mem_cons_of_mem w hv)
    exact ⟨hfits', ((b.sameFrame_after w).isSome_get?_eq v.sheet).trans hsheet'⟩

/-- Two workbooks that come of one, by the plan for some changes and by writing the changed cells
one by one: they hold the same but for the gaps of tables, which the plan clears. -/
structure AgreesButGaps (maxArea : Nat) (deltas : List CellDelta)
    (b planned pointwise : Workbook) : Prop where
  frame : Workbook.SameFrame b planned
  frame' : Workbook.SameFrame b pointwise
  gap : ∀ id p, Plan.IsGap maxArea (Plan.editsOn id deltas) p → planned.cell? id p = none
  same : ∀ id p, ¬ Plan.IsGap maxArea (Plan.editsOn id deltas) p →
    planned.cell? id p = pointwise.cell? id p
  unnamed : ∀ id p, (∀ d ∈ deltas, d.sheet = id → d.position? ≠ some p) →
    pointwise.cell? id p = b.cell? id p
  /-- Where no position of a sheet is named twice there is no gap. -/
  distinct : ∀ id, ((Plan.editsOn id deltas).map Prod.fst).Nodup →
    ∀ p, ¬ Plan.IsGap maxArea (Plan.editsOn id deltas) p

/-- A local store with all sheets that the changes name carries out what is planned for them and
what writes them cell by cell, with the same outcome but for gaps. -/
theorem planned_as_points {deltas : List CellDelta} {maxArea : Nat} (h : s.Holds b) :
    (∀ d ∈ deltas, ∀ p ∈ d.position?, p.IsInner) → maxArea ≤ rangeLimit →
    (∀ d ∈ deltas, d.position?.isSome → (b.sheets.get? d.sheet).isSome) →
    ∃ planned pointwise : Workbook,
      (applyAll (Plan.writes maxArea deltas)).perform s =
          (.ok (), { s with workbook := some planned }) ∧
        (applyAll (Plan.points deltas)).perform s =
          (.ok (), { s with workbook := some pointwise }) ∧
        AgreesButGaps maxArea deltas b planned pointwise := by
  intro _ hlimit hsheets
  have hplanned : ∀ w ∈ Plan.writes maxArea deltas,
      w.Fits rangeLimit ∧ (b.sheets.get? w.sheet).isSome := by
    intro w hw
    obtain ⟨d, hd, hsome, hsheet⟩ := Plan.exists_of_mem_writes hw
    exact ⟨(Plan.fits_of_mem_writes hw).mono hlimit, hsheet ▸ hsheets d hd hsome⟩
  have hpoints : ∀ w ∈ Plan.points deltas,
      w.Fits rangeLimit ∧ (b.sheets.get? w.sheet).isSome := by
    intro w hw
    obtain ⟨d, hd, hsome, hsheet⟩ := Plan.exists_of_mem_points hw
    exact ⟨Plan.fits_of_mem_points w hw, hsheet ▸ hsheets d hd hsome⟩
  refine ⟨_, _, h.perform_applyAll hplanned, h.perform_applyAll hpoints, ?_⟩
  exact {
    frame := b.sameFrame_foldl_after _
    frame' := b.sameFrame_foldl_after _
    gap := fun id p => (b.cell?_foldl_after_writes hlimit id p).1
    same := fun id p => (b.cell?_foldl_after_writes hlimit id p).2
    unnamed := fun id p => b.cell?_foldl_after_points
    distinct := fun id hnodup p hgap => hgap.not_nodup hnodup }

/-- Changes of two cells with another one between them, the first named twice. -/
def repeatedDeltas : List CellDelta :=
  [{ sheet := defaultSheet, row := 0, col := 0, after := .ofValue (.bool false) },
    { sheet := defaultSheet, row := 0, col := 0, after := .ofValue (.bool false) },
    { sheet := defaultSheet, row := 0, col := 2, after := .ofValue (.bool false) }]

theorem planned_as_points_repeated :
    ({ workbook := some sampleWorkbook } : Store).Holds sampleWorkbook ∧ 10000 ≤ rangeLimit ∧
      ∃ planned pointwise : Workbook,
        (applyAll (Plan.writes 10000 repeatedDeltas)).perform { workbook := some sampleWorkbook } =
            (.ok (), { workbook := some planned }) ∧
          (applyAll (Plan.points repeatedDeltas)).perform { workbook := some sampleWorkbook } =
            (.ok (), { workbook := some pointwise }) ∧
          AgreesButGaps 10000 repeatedDeltas sampleWorkbook planned pointwise :=
  ⟨⟨rfl, rfl, rfl⟩, by decide,
    planned_as_points ⟨rfl, rfl, rfl⟩ (by decide) (by decide) (by decide)⟩

/-- The cell between is gone after what is planned, and stays when the changed cells are written one
by one. -/
theorem repeated_position_clears_gap :
    ({ workbook := some sampleWorkbook } : Store).Holds sampleWorkbook ∧
      (∀ d ∈ repeatedDeltas, ∀ p ∈ d.position?, p.IsInner) ∧
      (∀ d ∈ repeatedDeltas, d.position?.isSome →
        (sampleWorkbook.sheets.get? d.sheet).isSome) ∧
      (∀ d ∈ repeatedDeltas, d.sheet = defaultSheet → d.position? ≠ some ⟨0, 1⟩) ∧
      (((applyAll (Plan.writes 10000 repeatedDeltas)).perform
          { workbook := some sampleWorkbook }).2.workbook.bind
            (·.cell? defaultSheet ⟨0, 1⟩)) = none ∧
      (((applyAll (Plan.points repeatedDeltas)).perform
          { workbook := some sampleWorkbook }).2.workbook.bind
            (·.cell? defaultSheet ⟨0, 1⟩)) = some sampleEdit.toState := by
  refine ⟨⟨rfl, rfl, rfl⟩, by decide, by decide, by decide, ?_, ?_⟩ <;> decide +kernel

end Store

end SheetSync
