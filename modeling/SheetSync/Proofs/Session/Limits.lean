import SheetSync.Proofs.Session.Consistency
/-!
Configurations and the limit of a local store. A configuration is accepted whatever its largest
numbers are, and the store refuses every range beyond its limit. Main statement: `keepsToLimit_iff`,
by which just those accepted configurations never exceed the limit whose range writes and whose
chunks are within it.
-/
namespace SheetSync

variable {α : Type}

/-- Whether a command was refused because its range is too large. -/
def IsTooLarge (r : Except StoreError α) : Prop :=
  ∃ rect cells limit, r = .error (.rangeTooLarge rect cells limit)

/-- Whether a command on the sheets of a descriptor failed, if at all, for want of a sheet that the
workbook does not have. -/
def Lacks (d : Descriptor) (b : Workbook) (r : Except StoreError α) : Prop :=
  ∀ e, r = .error e → ∃ info ∈ d.sheets, b.sheets.get? info.id = none ∧ e = .sheetNotFound info.id

namespace Lacks

variable {d : Descriptor} {b : Workbook} {r : Except StoreError α}

theorem not_isTooLarge (h : Lacks d b r) : ¬ IsTooLarge r := by
  rintro ⟨rect, cells, limit, rfl⟩
  obtain ⟨info, -, -, he⟩ := h _ rfl
  cases he

/-- A workbook has the sheets of its descriptor. -/
theorem exists_ok (h : Lacks b.descriptor b r) : ∃ a, r = .ok a := by
  cases r with
  | ok a => exact ⟨a, rfl⟩
  | error e =>
    obtain ⟨info, hinfo, hnone, -⟩ := h e rfl
    have hsome := Workbook.isSome_get?_iff.mpr ⟨info, hinfo, rfl⟩
    rw [hnone] at hsome
    cases hsome

/-- Cells do not matter. -/
theorem of_sameFrame {b' : Workbook} (h : Lacks d b' r) (hframe : Workbook.SameFrame b b') :
    Lacks d b r := by
  intro e he
  obtain ⟨info, hinfo, hnone, heq⟩ := h e he
  refine ⟨info, hinfo, ?_, heq⟩
  have hsome := hframe.isSome_get?_eq info.id
  rw [hnone] at hsome
  exact Option.not_isSome_iff_eq_none.mp (by rw [← hsome]; exact Bool.false_ne_true)

end Lacks

namespace Session

variable {γ : Type} {rely : Pause → Session → γ → Session → γ → Prop} {s : Session} {g : γ}
  {b : Workbook} {rows cols : Nat}

/-! ## Chunks within the limit -/

theorem commands_usedRange?_of_none (h : s.store.Holds b) {id : String}
    (hnone : b.sheets.get? id = none) {post : Except StoreError (Option Rect) → Session → γ → Prop} :
    Commands rely (Store.usedRange? id) s g post ↔ post (.error (.sheetNotFound id)) s g := by
  have hmissing : b.sheet id = .error (.sheetNotFound id) := by simp only [Workbook.sheet, hnone]
  simp only [Store.usedRange?, commands_bind, commands_log h.watch, commands_passRead h.watch,
    commands_get, h.kind, commands_liftM, commands_current h.workbook, hmissing]

/-- Reading in chunks within the limit fails for want of a sheet only. -/
theorem commands_loadSheets_lacks (h : s.store.Holds b)
    (hchunk : max rows 1 * max cols 1 ≤ rangeLimit) {d : Descriptor} {infos : List SheetInfo}
    (hinfos : ∀ info ∈ infos, info ∈ d.sheets) :
    Commands rely (Store.loadSheets rows cols infos) s g fun r _ _ => Lacks d b r := by
  induction infos with
  | nil => exact (commands_pure _).mpr fun e he => by cases he
  | cons info infos ih =>
    have hrest := ih fun i hi => hinfos i (List.mem_cons_of_mem info hi)
    refine commands_bind.mpr ?_
    cases hsheet : b.sheets.get? info.id with
    | none =>
      refine commands_bind.mpr ((commands_usedRange?_of_none h hsheet).mpr fun e he => ?_)
      exact ⟨info, hinfos info List.mem_cons_self, hsheet, (Except.error.inj he).symm⟩
    | some sheet =>
      refine commands_loadSheet h (by rw [hsheet]; rfl) fun r hr => ?_
      obtain rfl := hr.eq_ok hchunk
      refine commands_bind.mpr (hrest.imp ?_)
      rintro (e | sheets) t i ht
      · exact fun e' he => ht e' (congrArg Except.error (Except.error.inj he))
      · exact (commands_pure _).mpr fun e he => by cases he

theorem commands_passWrite (hwatch : s.store.watch = none) (sheet : String)
    {post : Except StoreError Unit → Session → γ → Prop} :
    Commands rely (Store.passWrite sheet) s g post ↔ post (.ok ()) s g := by
  simp [Store.passWrite, Store.switches, commands_bind, hwatch]

theorem withBook_eq_self (h : s.store.Holds b) : s.withBook b = s := by
  have hstore : { s.store with workbook := some b } = s.store := by rw [← h.workbook]
  rw [withBook, hstore]

theorem holds_withBook (h : s.store.Holds b) (b' : Workbook) : (s.withBook b').store.Holds b' :=
  ⟨h.kind, h.watch, rfl⟩

/-- A table that fits its range is written to a sheet that is there. -/
theorem commands_setRange (h : s.store.Holds b) {id : String} (hsheet : (b.sheets.get? id).isSome)
    {rect : Rect} {values : List (List CellEdit)}
    (hfits : (Write.range id rect values).Fits rangeLimit)
    {post : Except StoreError Unit → Session → γ → Prop} :
    Commands rely (Store.setRange id rect values) s g post ↔
      post (.ok ()) (s.withBook (b.after (.range id rect values))) g := by
  have hwrite : b.writeAll id (rect.entries values) = .ok (b.after (.range id rect values)) :=
    (Workbook.receive_of_fits hfits).symm.trans (Workbook.receive_eq_ok hfits hsheet)
  obtain ⟨hvalid, harea, hshape⟩ := hfits
  simp only [Store.setRange, Store.setCurrent, commands_bind, commands_log h.watch,
    commands_passWrite h.watch, commands_get, h.kind, commands_liftM,
    Workbook.checkRange_eq_ok_iff.mpr ⟨hvalid, harea⟩, Workbook.checkShape_eq_ok_iff.mpr hshape,
    commands_current h.workbook, hwrite, commands_modify, withBook]

theorem commands_writeChunks (h : s.store.Holds b) {id : String}
    (hsheet : (b.sheets.get? id).isSome) (cells : ByPosition CellState) {chunks : List Rect}
    (hchunks : ∀ c ∈ chunks, c.isValid ∧ c.area ≤ rangeLimit)
    {post : Except StoreError Nat → Session → γ → Prop}
    (hpost : ∀ n b', Workbook.SameFrame b b' → post (.ok n) (s.withBook b') g) :
    Commands rely (Store.writeChunks id cells chunks) s g post := by
  induction chunks generalizing b s post with
  | nil =>
    refine (commands_pure _).mpr ?_
    have h0 := hpost 0 b (.refl b)
    rwa [withBook_eq_self h] at h0
  | cons c chunks ih =>
    obtain ⟨hvalid, harea⟩ := hchunks c List.mem_cons_self
    have hfits : (Store.chunkWrite id cells c).Fits rangeLimit :=
      Store.fits_chunkWrite hvalid harea id cells
    have hframe := b.sameFrame_after (Store.chunkWrite id cells c)
    refine commands_bind.mpr ((commands_setRange h hsheet hfits).mpr ?_)
    refine commands_bind.mpr (ih (holds_withBook h _) ?_ (fun e he => ?_) fun n b' hframe' => ?_)
    · exact (hframe.isSome_get?_eq id).trans hsheet
    · exact hchunks e (List.mem_cons_of_mem c he)
    · exact (commands_pure _).mpr (hpost _ b' (hframe.trans hframe'))

/-- Writing over a sheet in chunks within the limit fails for want of the sheet only. -/
theorem commands_replaySheet_lacks (h : s.store.Holds b)
    (hchunk : max rows 1 * max cols 1 ≤ rangeLimit) (d : Descriptor) (copy : SheetSnapshot)
    {post : Except StoreError Nat → Session → γ → Prop}
    (hpost : ∀ r b', Workbook.SameFrame b b' → Lacks d b r → post r (s.withBook b') g) :
    Commands rely (Store.replaySheet d rows cols copy) s g post := by
  have hok : ∀ n b', Workbook.SameFrame b b' → post (.ok n) (s.withBook b') g :=
    fun n b' hframe => hpost _ b' hframe fun e he => by cases he
  have hsame : ∀ r, Lacks d b r → post r s g := fun r hr => by
    have h0 := hpost r b (.refl b) hr
    rwa [withBook_eq_self h] at h0
  unfold Store.replaySheet
  split
  · exact (commands_pure _).mpr (hsame _ fun e he => by cases he)
  next hlisted =>
  refine commands_bind.mpr ?_
  cases hsheet : b.sheets.get? copy.id with
  | none =>
    refine (commands_usedRange?_of_none h hsheet).mpr (hsame _ fun e he => ?_)
    obtain ⟨info, hinfo⟩ := Option.ne_none_iff_exists'.mp (mt Option.isNone_iff_eq_none.mpr hlisted)
    have hid : info.id = copy.id := by simpa using List.find?_some hinfo
    exact ⟨info, List.mem_of_find?_eq_some hinfo, by rw [hid]; exact hsheet,
      by rw [hid]; exact (Except.error.inj he).symm⟩
  | some sheet =>
    refine (commands_usedRange? h hsheet).mpr ?_
    dsimp only
    split
    · exact (commands_pure _).mpr (hsame _ fun e he => by cases he)
    · refine commands_writeChunks h (by rw [hsheet]; rfl) _ (fun c hc => ?_) hok
      exact (Rect.chunk_bounds hc).imp_right fun harea => Nat.le_trans harea hchunk

theorem commands_replaySheets_lacks (h : s.store.Holds b)
    (hchunk : max rows 1 * max cols 1 ≤ rangeLimit) (d : Descriptor) (copies : List SheetSnapshot) :
    Commands rely (Store.replaySheets d rows cols copies) s g fun r _ _ => Lacks d b r := by
  induction copies generalizing b s with
  | nil => exact (commands_pure _).mpr fun e he => by cases he
  | cons copy copies ih =>
    refine commands_bind.mpr (commands_replaySheet_lacks h hchunk d copy ?_)
    rintro (e | n) b' hframe hlacks
    · exact fun e' he => hlacks e' (congrArg Except.error (Except.error.inj he))
    · refine commands_bind.mpr ((ih (holds_withBook h b')).imp ?_)
      rintro (e | m) t i ht
      · have ht' := Lacks.of_sameFrame (r := (.error e : Except StoreError Nat)) ht hframe
        exact fun e' he => ht' e' (congrArg Except.error (Except.error.inj he))
      · exact (commands_pure _).mpr fun e he => by cases he

/-- Loading in chunks within the limit fails for want of a sheet only. -/
theorem commands_loadSnapshot_lacks (h : s.store.Holds b)
    (hchunk : max rows 1 * max cols 1 ≤ rangeLimit) (d : Descriptor) :
    Commands rely (Store.loadSnapshot d rows cols) s g fun r _ _ => Lacks d b r := by
  refine commands_bind.mpr ((commands_loadSheets_lacks h hchunk fun _ hinfo => hinfo).imp ?_)
  rintro (e | sheets) t i ht
  · exact fun e' he => ht e' (congrArg Except.error (Except.error.inj he))
  · exact (commands_pure _).mpr fun e he => by cases he

/-! ## Ranges beyond the limit -/

theorem checkRange_of_lt {rect : Rect} (hvalid : rect.isValid) (harea : rangeLimit < rect.area) :
    checkRange rect = .error (.rangeTooLarge rect rect.area rangeLimit) := by
  simp [checkRange, hvalid, harea]

theorem commands_getRange_of_lt (h : s.store.Holds b) (id : String) {rect : Rect}
    (hvalid : rect.isValid) (harea : rangeLimit < rect.area)
    {post : Except StoreError (List (List CellState)) → Session → γ → Prop} :
    Commands rely (Store.getRange id rect) s g post ↔
      post (.error (.rangeTooLarge rect rect.area rangeLimit)) s g := by
  simp only [Store.getRange, commands_bind, commands_log h.watch, commands_passRead h.watch,
    commands_get, h.kind, commands_liftM, checkRange_of_lt hvalid harea]

/-- A workbook is not loaded when the first chunk of its first sheet is beyond the limit. -/
theorem commands_loadSnapshot_of_lt (h : s.store.Holds b) {id : String} {sheet : Sheet}
    {rest : Keyed Sheet} (hsheets : b.sheets = (id, sheet) :: rest) {used : Rect}
    (hused : sheet.usedRange? = some used) (hvalid : used.isValid)
    (harea : rangeLimit < min (max rows 1) used.rows * min (max cols 1) used.cols) :
    Commands rely (Store.loadSnapshot b.descriptor rows cols) s g fun r _ _ => IsTooLarge r := by
  have hsheet : b.sheets.get? id = some sheet := by rw [hsheets, Keyed.get?_cons, if_pos rfl]
  obtain ⟨c, chunks, hchunks, hc, hlarge⟩ := Rect.exists_chunks_eq_cons hvalid rows cols
  rw [← hlarge] at harea
  unfold Store.loadSnapshot
  rw [Workbook.descriptor, hsheets]
  -- sheet by sheet and chunk by chunk, down to the first one
  refine commands_bind.mpr (commands_bind.mpr (commands_bind.mpr ?_))
  refine (commands_usedRange? h hsheet).mpr ?_
  rw [hused]
  dsimp only
  rw [hchunks]
  refine commands_bind.mpr (commands_bind.mpr ((commands_getRange_of_lt h id hc harea).mpr ?_))
  exact ⟨_, _, _, rfl⟩

end Session

/-! ## Planned writes -/

namespace Store.Holds

variable {s : Store} {b : Workbook}

theorem perform_apply_of_fits (h : s.Holds b) {w : Write} (hfits : w.Fits rangeLimit) :
    ((b.sheets.get? w.sheet).isSome → ((apply w).perform s).1 = .ok ()) ∧
      ¬ IsTooLarge ((apply w).perform s).1 := by
  rw [h.perform_apply]
  cases hsheet : b.sheets.get? w.sheet with
  | some sheet =>
    rw [Workbook.receive_eq_ok hfits (by rw [hsheet]; rfl)]
    refine ⟨fun _ => rfl, ?_⟩
    rintro ⟨rect, cells, limit, he⟩
    cases he
  | none =>
    rw [Workbook.receive_of_fits hfits, Workbook.writeAll_of_get?_eq_none hsheet]
    refine ⟨fun hsome => (by cases hsome), ?_⟩
    rintro ⟨rect, cells, limit, he⟩
    cases he

theorem perform_setRange_of_lt (h : s.Holds b) (id : String) {rect : Rect}
    (hvalid : rect.isValid) (harea : rangeLimit < rect.area) (values : List (List CellEdit)) :
    IsTooLarge ((apply (.range id rect values)).perform s).1 := by
  rw [h.perform_apply, Workbook.receive, Session.checkRange_of_lt hvalid harea]
  exact ⟨_, _, _, rfl⟩

end Store.Holds

theorem Document.exists_of_mem_setCells {id : String} {s : Sheet}
    {cells : List (Position × CellState)} {d : CellDelta} (h : d ∈ (setCells id s cells).2) :
    ∃ c ∈ cells, d.row = c.1.row ∧ d.col = c.1.col := by
  induction cells generalizing s with
  | nil => cases h
  | cons c cells ih =>
    rcases List.mem_cons.mp h with rfl | h
    · exact ⟨c, List.mem_cons_self, rfl, rfl⟩
    · obtain ⟨e, he, hd⟩ := ih h
      exact ⟨e, List.mem_cons_of_mem c he, hd⟩

/-! ## A workbook as large as its corners are apart -/

/-- Whether all content of a workbook lies off the last two rows and columns. -/
def Workbook.IsInner (b : Workbook) : Prop := ∀ id p c, b.cell? id p = some c → p.IsInner

theorem Sheet.getElem?_put (s : Sheet) (p q : Position) {c : CellState} (hc : c.isEmpty = false) :
    (s.put p c).cells[q]? = if q = p then some c else s.cells[q]? := by
  simp only [put, hc, Bool.false_eq_true, if_false, ByPosition.getElem?_insert]

/-- A sheet with content in two opposite corners of a range. -/
def Sheet.cornered (rows cols : Nat) : Sheet :=
  (({ name := defaultSheet } : Sheet).put ⟨0, 0⟩ (.ofValue (.bool true))).put
    ⟨rows - 1, cols - 1⟩ (.ofValue (.bool true))

def Workbook.cornered (rows cols : Nat) : Workbook :=
  { sheets := [(defaultSheet, .cornered rows cols)] }

theorem Sheet.isSome_getElem?_cornered {rows cols : Nat} {p : Position} :
    ((cornered rows cols).cells[p]?).isSome ↔ p = ⟨rows - 1, cols - 1⟩ ∨ p = ⟨0, 0⟩ := by
  rw [cornered, getElem?_put _ _ _ rfl, getElem?_put _ _ _ rfl]
  split <;> simp_all

theorem Workbook.isInner_cornered {rows cols : Nat} (hrows : rows ≤ gridSize - 2)
    (hcols : cols ≤ gridSize - 2) : (cornered rows cols).IsInner := by
  intro id p c hc
  obtain ⟨sheet, hsheet, hcell⟩ := Option.bind_eq_some_iff.mp hc
  rw [cornered, Keyed.get?_cons] at hsheet
  split at hsheet
  · obtain rfl := Option.some.inj hsheet
    have hpos : 0 < gridSize - 2 := by decide
    rcases Sheet.isSome_getElem?_cornered.mp (by rw [hcell]; rfl) with rfl | rfl
    · exact ⟨by dsimp only; omega, by dsimp only; omega⟩
    · exact ⟨hpos, hpos⟩
  · cases hsheet

/-- The range between the corners is in use. -/
theorem Sheet.exists_usedRange?_cornered (rows cols : Nat) :
    ∃ used, (cornered rows cols).usedRange? = some used ∧ used.isValid ∧
      rows ≤ used.rows ∧ cols ≤ used.cols := by
  have hkeys : ∀ p, p = ⟨rows - 1, cols - 1⟩ ∨ p = ⟨0, 0⟩ → p ∈ (cornered rows cols).cells.keys := by
    intro p hp
    rw [Std.ExtTreeMap.mem_keys, ← Std.ExtTreeMap.isSome_getElem?_iff_mem]
    exact isSome_getElem?_cornered.mpr hp
  have hfirst := hkeys _ (.inr rfl)
  obtain ⟨used, hused⟩ := Option.ne_none_iff_exists'.mp (mt Rect.around?_eq_none.mp
    (List.ne_nil_of_mem hfirst))
  have hin := Rect.contains_of_around? hused hfirst
  have hlast := Rect.contains_of_around? hused (hkeys _ (.inl rfl))
  refine ⟨used, hused, Rect.isValid_of_contains hin, ?_⟩
  simp only [Rect.contains_iff] at hin hlast
  simp only [Rect.rows, Rect.cols]
  omega

/-! ## Accepted configurations -/

def Snapshot.IsInner (s : Snapshot) : Prop :=
  ∀ sheet ∈ s.sheets, ∀ c ∈ sheet.cells, c.position.IsInner

def CellDelta.IsInner (d : CellDelta) : Prop := d.row < gridSize - 2 ∧ d.col < gridSize - 2

/-- Whether a local store never refuses what is read, put back or written under a configuration for
the size of a range, so that every workbook can be opened and put back and every edit of a sheet
that is there is carried out. -/
structure Config.KeepsToLimit (c : Config) : Prop where
  load : ∀ s b d, s.Holds b → b.IsInner →
    ¬ IsTooLarge ((Store.loadSnapshot d c.chunkRows c.chunkCols).perform s).1
  opens : ∀ s b, s.Holds b → b.IsInner →
    ∃ copy, ((Store.loadSnapshot b.descriptor c.chunkRows c.chunkCols).perform s).1 = .ok copy
  replay : ∀ s b d copy, s.Holds b → b.IsInner → copy.IsInner →
    ¬ IsTooLarge ((Store.replaySnapshot d copy c.chunkRows c.chunkCols).perform s).1
  restores : ∀ s b copy, s.Holds b → b.IsInner → copy.IsInner →
    ∃ n, ((Store.replaySnapshot b.descriptor copy c.chunkRows c.chunkCols).perform s).1 = .ok n
  write : ∀ s b deltas, s.Holds b → (∀ d ∈ deltas, d.IsInner) →
    ∀ w ∈ Plan.writes c.maxWriteArea deltas, ¬ IsTooLarge ((Store.apply w).perform s).1
  carries : ∀ s b deltas, s.Holds b → (∀ d ∈ deltas, d.IsInner) →
    ∀ w ∈ Plan.writes c.maxWriteArea deltas, (b.sheets.get? w.sheet).isSome →
      ((Store.apply w).perform s).1 = .ok ()

namespace Config

variable {c : Config}

/-- Within the limit nothing is refused for its size. -/
theorem keepsToLimit (harea : c.maxWriteArea ≤ rangeLimit)
    (hchunk : max c.chunkRows 1 * max c.chunkCols 1 ≤ rangeLimit) : c.KeepsToLimit := by
  have hload : ∀ s b d, s.Holds b →
      Lacks d b ((Store.loadSnapshot d c.chunkRows c.chunkCols).perform s).1 := fun s b d h =>
    Session.commands_alone.mp
      (Session.commands_loadSnapshot_lacks (s := { store := s }) h hchunk d)
  have hreplay : ∀ s b d copy, s.Holds b →
      Lacks d b ((Store.replaySnapshot d copy c.chunkRows c.chunkCols).perform s).1 :=
    fun s b d copy h => Session.commands_alone.mp
      (Session.commands_replaySheets_lacks (s := { store := s }) h hchunk d copy.sheets)
  have hfits : ∀ deltas, ∀ w ∈ Plan.writes c.maxWriteArea deltas, w.Fits rangeLimit :=
    fun deltas w hw => (Plan.fits_of_mem_writes hw).mono harea
  exact {
    load := fun s b d h _ => (hload s b d h).not_isTooLarge
    opens := fun s b h _ => (hload s b b.descriptor h).exists_ok
    replay := fun s b d copy h _ _ => (hreplay s b d copy h).not_isTooLarge
    restores := fun s b copy h _ _ => (hreplay s b b.descriptor copy h).exists_ok
    write := fun s b deltas h _ w hw => (h.perform_apply_of_fits (hfits deltas w hw)).2
    carries := fun s b deltas h _ w hw => (h.perform_apply_of_fits (hfits deltas w hw)).1 }

/-- Range writes are within the limit when none is refused. -/
theorem maxWriteArea_le (h : c.KeepsToLimit) : c.maxWriteArea ≤ rangeLimit := by
  refine Nat.le_of_not_lt fun hlt => ?_
  -- a column of one cell more than the limit, edited at once
  let cells : List (Position × CellState) :=
    (List.range (rangeLimit + 1)).map fun i => (⟨i, 0⟩, .ofValue (.bool true))
  let edits : Plan.Edits := cells.map fun cell => (cell.1, .ofState cell.2)
  have hinner : ∀ cell ∈ cells, cell.1.IsInner := by
    intro cell hcell
    obtain ⟨i, hi, rfl⟩ := List.mem_map.mp hcell
    have hi := List.mem_range.mp hi
    simp only [Position.IsInner, gridSize, UInt32.size, rangeLimit] at hi ⊢
    omega
  have hne : cells ≠ [] := by simp [cells]
  have hrect : Rect.around? (edits.map Prod.fst) = some ⟨0, 0, rangeLimit, 0⟩ := by
    simpa [edits, cells, Function.comp_def] using Rect.around?_column rangeLimit
  have hlength : edits.length = rangeLimit + 1 := by simp [edits, cells]
  have harea : (⟨0, 0, rangeLimit, 0⟩ : Rect).area = rangeLimit + 1 := by
    simp [Rect.area, Rect.rows, Rect.cols]
  have hdense : Plan.isDense ⟨0, 0, rangeLimit, 0⟩ edits.length c.maxWriteArea := by
    simp only [Plan.isDense, harea, hlength, decide_true, Bool.true_and, Bool.and_eq_true,
      decide_eq_true_eq]
    exact ⟨by decide, hlt⟩
  have hwrites : Plan.writes c.maxWriteArea
      (Document.setCells defaultSheet { name := defaultSheet } cells).2 =
      [.range defaultSheet ⟨0, 0, rangeLimit, 0⟩ (Plan.table ⟨0, 0, rangeLimit, 0⟩ edits)] := by
    rw [Plan.writes_setCells _ _ _ hne fun cell hcell => (hinner cell hcell).inGrid,
      Plan.sheetWrites, hrect]
    exact if_pos hdense
  refine h.write { workbook := some .blank } .blank _ ⟨rfl, rfl, rfl⟩ (fun d hd => ?_) _
    (by rw [hwrites]; exact List.mem_singleton_self _) ?_
  · obtain ⟨cell, hcell, hrow, hcol⟩ := Document.exists_of_mem_setCells hd
    obtain ⟨hr, hc⟩ := hinner cell hcell
    rw [CellDelta.IsInner, hrow, hcol]
    omega
  · exact Store.Holds.perform_setRange_of_lt ⟨rfl, rfl, rfl⟩ _ rfl
      (by rw [harea]; exact Nat.lt_succ_self _) _

theorem lt_min_mul_min {n a b size : Nat} (h : n < a * b) (hsize : n < size) :
    n < min a size * min b size := by
  have ha : 0 < a := Nat.pos_of_ne_zero fun h0 => by rw [h0, Nat.zero_mul] at h; omega
  have hb : 0 < b := Nat.pos_of_ne_zero fun h0 => by rw [h0, Nat.mul_zero] at h; omega
  -- one side as long as a sheet is enough
  rcases Nat.le_total a size with hale | hale
  · rcases Nat.le_total b size with hble | hble
    · rwa [Nat.min_eq_left hale, Nat.min_eq_left hble]
    · rw [Nat.min_eq_right hble]
      exact Nat.lt_of_lt_of_le hsize (Nat.le_mul_of_pos_left _ (by omega))
  · rw [Nat.min_eq_right hale]
    exact Nat.lt_of_lt_of_le hsize (Nat.le_mul_of_pos_right _ (by omega))

/-- Chunks are within the limit when none is refused. -/
theorem chunkArea_le (h : c.KeepsToLimit) : c.chunkRows * c.chunkCols ≤ rangeLimit := by
  refine Nat.le_of_not_lt fun hlt => ?_
  -- a workbook that takes up a chunk, or a whole sheet where a chunk is larger
  let rows := min c.chunkRows (gridSize - 2)
  let cols := min c.chunkCols (gridSize - 2)
  have hlarge : rangeLimit < rows * cols := lt_min_mul_min hlt (by decide)
  obtain ⟨used, hused, hvalid, hrows, hcols⟩ := Sheet.exists_usedRange?_cornered rows cols
  refine h.load { workbook := some (.cornered rows cols) } _ (Workbook.cornered rows cols).descriptor
    ⟨rfl, rfl, rfl⟩ ?_ (Session.commands_alone.mp (Session.commands_loadSnapshot_of_lt
      (s := { store := _ }) ⟨rfl, rfl, rfl⟩ rfl hused hvalid ?_))
  · exact Workbook.isInner_cornered (Nat.min_le_right ..) (Nat.min_le_right ..)
  · refine Nat.lt_of_lt_of_le hlarge (Nat.mul_le_mul ?_ ?_) <;> omega

/-- An accepted configuration keeps to the limit of a local store just when its range writes and
its chunks do. -/
theorem keepsToLimit_iff (h : c.validated = .ok c) :
    c.KeepsToLimit ↔ c.maxWriteArea ≤ rangeLimit ∧ c.chunkRows * c.chunkCols ≤ rangeLimit := by
  obtain ⟨hrows, hcols⟩ := chunk_pos h
  constructor
  · exact fun hkeeps => ⟨maxWriteArea_le hkeeps, chunkArea_le hkeeps⟩
  · rintro ⟨harea, hchunk⟩
    refine keepsToLimit harea ?_
    rwa [Nat.max_eq_left hrows, Nat.max_eq_left hcols]

theorem keepsToLimit_default : ({} : Config).validated = .ok {} ∧ ({} : Config).KeepsToLimit :=
  ⟨by decide, (keepsToLimit_iff (c := {}) (by decide)).mpr (by decide)⟩

/-- Chunks of a million cells are accepted, and a workbook with content that far apart is not
loaded in them. -/
theorem accepts_chunks_beyond_limit :
    ({ chunkRows := 1000, chunkCols := 1000 } : Config).validated =
        .ok { chunkRows := 1000, chunkCols := 1000 } ∧
      (Workbook.cornered 1000 1000).IsInner ∧
      ((Store.loadSnapshot (Workbook.cornered 1000 1000).descriptor 1000 1000).perform
          { workbook := some (.cornered 1000 1000) }).1 =
        .error (.rangeTooLarge ⟨0, 0, 999, 999⟩ 1000000 250000) := by
  refine ⟨by decide, Workbook.isInner_cornered (by decide) (by decide), ?_⟩
  decide +kernel

end Config

end SheetSync
