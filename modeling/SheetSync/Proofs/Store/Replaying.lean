import SheetSync.Proofs.Store.Reopen
/-!
Copies written over a workbook. Whatever the copy and whatever the workbook holds, the sheets that
both have come to hold the copy's cells and nothing else: what is written covers the cells of the
copy and all that was there before, in chunks that leave no gap. Of sheets that a copy lists more
than once, and of cells that one lists more than once, the last counts.

Main statement: `Store.replay_overwrites`.
-/
namespace SheetSync

/-! ## Copies with repetitions -/

namespace SheetSnapshot

/-- The state that a copy gives for a position: the last one, if it gives any. -/
def state? (s : SheetSnapshot) (p : Position) : Option CellState :=
  (s.cells.findRev? (·.position = p)).map (·.state)

theorem getElem?_lastStates (s : SheetSnapshot) (p : Position) :
    (Store.lastStates s.cells)[p]? = s.state? p := by
  rw [Store.lastStates_eq, ByPosition.getElem?_ofEntries_items, state?]

end SheetSnapshot

/-- A workbook over which the sheets of a copy were written. -/
structure Overwritten (b : Workbook) (copies : List SheetSnapshot) (b' : Workbook) : Prop
    extends Workbook.SameFrame b b' where
  /-- A sheet stores what its last copy gives for a position, and nothing where that gives none. -/
  copied : ∀ id copy, (b.sheets.get? id).isSome → copies.findRev? (·.id = id) = some copy →
    ∀ p, b'.cell? id p = (copy.state? p).bind CellState.written?
  others : ∀ id, (∀ copy ∈ copies, copy.id ≠ id) → b'.sheets.get? id = b.sheets.get? id

namespace Overwritten

variable {b b' b'' : Workbook} {copy : SheetSnapshot} {copies : List SheetSnapshot}

theorem nil (b : Workbook) : Overwritten b [] b where
  toSameFrame := .refl b
  copied id copy _ h := by simp at h
  others id _ := rfl

/-- One copy after the other. -/
theorem cons (h : Overwritten b [copy] b') (h' : Overwritten b' copies b'') :
    Overwritten b (copy :: copies) b'' where
  toSameFrame := h.toSameFrame.trans h'.toSameFrame
  copied id last hid hlast p := by
    rw [List.findRev?_eq_find?_reverse, List.reverse_cons, List.find?_append] at hlast
    cases hrest : copies.reverse.find? (·.id = id) with
    | some other =>
      -- a later copy of the sheet hides this one
      simp only [hrest, Option.some_or, Option.some.injEq] at hlast
      subst hlast
      rw [← List.findRev?_eq_find?_reverse] at hrest
      exact h'.copied id other (by rw [h.isSome_get?_eq]; exact hid) hrest p
    | none =>
      simp only [hrest, Option.none_or] at hlast
      have hothers : ∀ other ∈ copies, other.id ≠ id := by
        intro other hmem
        simpa using List.find?_eq_none.mp hrest other (List.mem_reverse.mpr hmem)
      have hcell : b''.cell? id p = b'.cell? id p := by
        simp only [Workbook.cell?, h'.others id hothers]
      rw [hcell]
      exact h.copied id last hid (by simpa using hlast) p
  others id hid := by
    have hcopy : ∀ other ∈ [copy], other.id ≠ id := by
      intro other hother
      rw [List.mem_singleton.mp hother]
      exact hid copy List.mem_cons_self
    have hcopies : ∀ other ∈ copies, other.id ≠ id := fun other hother =>
      hid other (List.mem_cons_of_mem copy hother)
    rw [h'.others id hcopies, h.others id hcopy]

end Overwritten

namespace Workbook

/-- A sheet over which a copy is written, as the workbook's cells show it. -/
theorem overwritten_foldl_after {b : Workbook} {copy : SheetSnapshot} {there : Sheet}
    (hthere : b.sheets.get? copy.id = some there) {rows cols : Nat}
    (hfits : ∀ w ∈ Store.copyWrites rows cols copy there, w.Fits rangeLimit) :
    Overwritten b [copy] ((Store.copyWrites rows cols copy there).foldl after b) := by
  have hws : ∀ w ∈ Store.copyWrites rows cols copy there, w.Fits rangeLimit ∧ w.sheet = copy.id :=
    fun w hw => ⟨hfits w hw, Store.sheet_of_mem_copyWrites hw⟩
  have hsheets := get?_sheets_foldl_after (b := b) hws
  refine ⟨b.sameFrame_foldl_after _, ?_, ?_⟩
  · intro id last _ hlast p
    obtain ⟨hid, rfl⟩ : copy.id = id ∧ copy = last := by simpa using hlast
    subst hid
    simp only [cell?, hsheets, hthere, Option.map_some, Option.bind_some, if_true]
    rw [Store.copyWrites, Store.getElem?_cells_replay, copy.getElem?_lastStates]
  · intro id hid
    have hne : id ≠ copy.id := (hid copy (List.mem_singleton_self copy)).symm
    rw [hsheets]
    simp [hne]

end Workbook

/-! ## Calls -/

/-- Makes no read and no write fail, and holds none up. -/
structure Watch.LetsPass (w : Watch) : Prop where
  reads : w.readsFail = false
  failing : w.failingReads = 0
  writes : w.closedSheets = []
  quick : w.isSlow = false

namespace Call

/-- Whether a call writes a table. -/
def isRangeWrite : Call → Bool
  | setRange _ _ => true
  | _ => false

end Call

namespace Store

variable {s : Store} {b : Workbook} {rows cols : Nat}

/-- The store after it logged some calls, if it is watched, and with another workbook. -/
def served (calls : List Call) (b : Workbook) (s : Store) : Store :=
  { s with
    workbook := some b
    watch := s.watch.map fun w => { w with calls := w.calls ++ calls } }

theorem served_served (calls calls' : List Call) (b b' : Workbook) (s : Store) :
    (s.served calls b).served calls' b' = s.served (calls ++ calls') b' := by
  obtain ⟨kind, workbook, watch, files⟩ := s
  cases watch <;> simp [served, ← Array.toList_inj]

theorem served_of_watch_eq_none (hwatch : s.watch = none) (calls : List Call) (b : Workbook) :
    s.served calls b = { s with workbook := some b } := by
  obtain ⟨kind, workbook, watch, files⟩ := s
  obtain rfl : watch = none := hwatch
  rfl

/-- A local store with a workbook that carries out all it is told, whether it is watched or not. -/
structure Serves (s : Store) (b : Workbook) : Prop where
  kind : s.kind = .local
  workbook : s.workbook = some b
  watch : ∀ w ∈ s.watch, w.LetsPass

namespace Serves

theorem served (h : s.Serves b) (calls : List Call) (b' : Workbook) :
    (s.served calls b').Serves b' where
  kind := h.kind
  workbook := rfl
  watch w hw := by
    obtain ⟨v, hv, rfl⟩ := Option.map_eq_some_iff.mp hw
    obtain ⟨hreads, hfailing, hwrites, hquick⟩ := h.watch v hv
    exact ⟨hreads, hfailing, hwrites, hquick⟩

theorem served_nil (h : s.Serves b) : s.served [] b = s := by
  obtain ⟨kind, workbook, watch, files⟩ := s
  obtain rfl : workbook = some b := h.workbook
  cases watch <;> simp [Store.served]

theorem served_singleton (h : s.Serves b) (call : Call) : s.served [call] b = s.logged call := by
  obtain ⟨kind, workbook, watch, files⟩ := s
  obtain rfl : workbook = some b := h.workbook
  cases watch <;> simp [Store.served, logged]

theorem passRead (h : s.Serves b) : AtOnce Store.passRead s (.ok ()) s := by
  obtain ⟨kind, workbook, watch, files⟩ := s
  cases watch with
  | none => rfl
  | some w =>
    obtain ⟨hreads, hfailing, -, -⟩ := h.watch w rfl
    obtain ⟨calls, openFails, readsFail, failingReads, saveFails, closedSheets, isSlow, stat⟩ := w
    obtain rfl : readsFail = false := hreads
    obtain rfl : failingReads = 0 := hfailing
    rfl

theorem passWrite (h : s.Serves b) (id : String) : AtOnce (Store.passWrite id) s (.ok ()) s := by
  obtain ⟨kind, workbook, watch, files⟩ := s
  cases watch with
  | none => rfl
  | some w =>
    obtain ⟨-, -, hwrites, hquick⟩ := h.watch w rfl
    obtain ⟨calls, openFails, readsFail, failingReads, saveFails, closedSheets, isSlow, stat⟩ := w
    obtain rfl : closedSheets = [] := hwrites
    obtain rfl : isSlow = false := hquick
    rfl

theorem current (h : s.Serves b) : AtOnce Store.current s (.ok b) s := by
  obtain ⟨kind, workbook, watch, files⟩ := s
  obtain rfl : workbook = some b := h.workbook
  rfl

theorem usedRange? (h : s.Serves b) {id : String} {sheet : Sheet}
    (hsheet : b.sheets.get? id = some sheet) :
    AtOnce (Store.usedRange? id) s (.ok sheet.usedRange?) (s.served [.usedRange id] b) := by
  have hlogged := h.served [.usedRange id] b
  rw [h.served_singleton] at hlogged ⊢
  refine AtOnce.bind (t := s.logged (.usedRange id)) rfl (.bind hlogged.passRead (.bind .get ?_))
  rw [hlogged.kind]
  refine .bind hlogged.current (.bind (a := sheet) ?_ (.pure _))
  simp only [Workbook.sheet, hsheet]
  rfl

theorem setRange (h : s.Serves b) {id : String} (hsheet : (b.sheets.get? id).isSome) {rect : Rect}
    {values : List (List CellEdit)} (hfits : (Write.range id rect values).Fits rangeLimit) :
    AtOnce (Store.setRange id rect values) s (.ok ())
      (s.served [.setRange id rect] (b.after (.range id rect values))) := by
  have hwrite : b.writeAll id (rect.entries values) = .ok (b.after (.range id rect values)) :=
    (Workbook.receive_of_fits hfits).symm.trans (Workbook.receive_eq_ok hfits hsheet)
  obtain ⟨hvalid, harea, hshape⟩ := hfits
  have hlogged := h.served [.setRange id rect] b
  rw [h.served_singleton] at hlogged
  refine AtOnce.bind (t := s.logged (.setRange id rect)) rfl
    (.bind (hlogged.passWrite id) (.bind .get ?_))
  rw [hlogged.kind]
  dsimp only
  rw [Workbook.checkRange_eq_ok_iff.mpr ⟨hvalid, harea⟩, Workbook.checkShape_eq_ok_iff.mpr hshape]
  refine .bind (a := ()) rfl (.bind (a := ()) rfl (.bind hlogged.current ?_))
  rw [hwrite, ← h.served_singleton]
  rfl

theorem writeChunks (h : s.Serves b) {id : String} (hsheet : (b.sheets.get? id).isSome)
    (cells : ByPosition CellState) {chunks : List Rect}
    (hchunks : ∀ w ∈ chunks.map (chunkWrite id cells), w.Fits rangeLimit) :
    AtOnce (Store.writeChunks id cells chunks) s (.ok chunks.length)
      (s.served (chunks.map (.setRange id))
        ((chunks.map (chunkWrite id cells)).foldl Workbook.after b)) := by
  induction chunks generalizing s b with
  | nil =>
    rw [List.map_nil, List.map_nil, List.foldl_nil, h.served_nil]
    exact .pure _
  | cons chunk chunks ih =>
    have hfits := hchunks _ List.mem_cons_self
    have hafter := h.served [.setRange id chunk] (b.after (chunkWrite id cells chunk))
    have hthere : ((b.after (chunkWrite id cells chunk)).sheets.get? id).isSome := by
      rw [(b.sameFrame_after _).isSome_get?_eq]
      exact hsheet
    have hrest := ih hafter hthere fun w hw => hchunks w (List.mem_cons_of_mem _ hw)
    rw [served_served] at hrest
    exact .bind (h.setRange hsheet hfits) (.bind hrest (.pure _))

end Serves

/-- A sheet of a copy is written over the workbook's, if there is one. The calls made and what is
left are the same for all stores of the workbook. -/
theorem exists_replaySheet (b : Workbook) (hchunk : max rows 1 * max cols 1 ≤ rangeLimit)
    (copy : SheetSnapshot) : ∃ calls b', Overwritten b [copy] b' ∧ ∀ s : Store, s.Serves b →
      AtOnce (replaySheet b.descriptor rows cols copy) s (.ok (calls.countP Call.isRangeWrite))
        (s.served calls b') := by
  have hlisted := b.isSome_sheet?_descriptor copy.id
  unfold replaySheet
  cases hthere : b.sheets.get? copy.id with
  | none =>
    rw [hthere, Option.isSome_none, Option.isSome_eq_false_iff] at hlisted
    refine ⟨[], b, ⟨.refl b, ?_, fun _ _ => rfl⟩, fun s h => ?_⟩
    · intro id last hid hlast
      obtain ⟨rfl, rfl⟩ : copy.id = id ∧ copy = last := by simpa using hlast
      rw [hthere] at hid
      cases hid
    · rw [if_pos hlisted, h.served_nil]
      exact .pure _
  | some there =>
    rw [hthere, Option.isSome_some, ← Option.not_isNone, Bool.not_eq_true'] at hlisted
    have hfits : ∀ w ∈ copyWrites rows cols copy there, w.Fits rangeLimit :=
      fun w hw => fits_of_mem_copyWrites hchunk hw
    have hover := Workbook.overwritten_foldl_after hthere hfits
    simp only [hlisted, Bool.false_eq_true, if_false]
    cases harea : replayArea? (lastStates copy.cells) there.usedRange? with
    | none =>
      simp only [copyWrites, replayChunks, harea] at hover
      refine ⟨[.usedRange copy.id], b, hover, fun s h => .bind (h.usedRange? hthere) ?_⟩
      simp only [harea]
      exact .pure _
    | some area =>
      simp only [copyWrites, replayChunks, harea] at hfits hover
      -- every chunk is one call
      have hcount : ((area.chunks rows cols).map (Call.setRange copy.id)).countP
          Call.isRangeWrite = (area.chunks rows cols).length := by
        simp [List.countP_map, Function.comp_def, Call.isRangeWrite]
      have hused : [Call.usedRange copy.id].countP Call.isRangeWrite = 0 := rfl
      refine ⟨[.usedRange copy.id] ++ (area.chunks rows cols).map (.setRange copy.id), _, hover,
        fun s h => .bind (h.usedRange? hthere) ?_⟩
      have hwrite := (h.served [.usedRange copy.id] b).writeChunks (by rw [hthere]; rfl) _ hfits
      rw [served_served] at hwrite
      rw [List.countP_append, hcount, hused, Nat.zero_add]
      simp only [harea]
      exact hwrite

theorem exists_replaySheets (b : Workbook) (hchunk : max rows 1 * max cols 1 ≤ rangeLimit)
    (copies : List SheetSnapshot) : ∃ calls b', Overwritten b copies b' ∧ ∀ s : Store, s.Serves b →
      AtOnce (replaySheets b.descriptor rows cols copies) s (.ok (calls.countP Call.isRangeWrite))
        (s.served calls b') := by
  induction copies generalizing b with
  | nil =>
    refine ⟨[], b, .nil b, fun s h => ?_⟩
    rw [h.served_nil]
    exact .pure _
  | cons copy copies ih =>
    obtain ⟨calls, b', hover, hfirst⟩ := exists_replaySheet b hchunk copy
    obtain ⟨calls', b'', hover', hrest⟩ := ih b'
    refine ⟨calls ++ calls', b'', hover.cons hover', fun s h => ?_⟩
    have hsecond := hrest _ (h.served calls b')
    rw [served_served, hover.descriptor] at hsecond
    rw [List.countP_append]
    exact .bind (hfirst s h) (.bind hsecond (.pure _))

/-- Writing a copy over the workbook of a local store succeeds, in any chunks within the limit. The
workbook comes to hold what the copy gives on every sheet that both have, and is left as it is
otherwise. The number given back is that of the tables written: a watch that makes nothing fail logs
so many. -/
theorem replay_overwrites {s : Store} {b : Workbook} (h : s.Holds b) (copy : Snapshot)
    (hchunk : max rows 1 * max cols 1 ≤ rangeLimit) :
    ∃ n b', (replaySnapshot b.descriptor copy rows cols).perform s =
        (.ok n, { s with workbook := some b' }) ∧
      Overwritten b copy.sheets b' ∧
      ∀ w : Watch, w.LetsPass → ∃ calls : List Call,
        (replaySnapshot b.descriptor copy rows cols).perform { s with watch := some w } =
          (.ok n, { s with workbook := some b', watch := some { w with calls := w.calls ++ calls } }) ∧
        calls.countP Call.isRangeWrite = n := by
  obtain ⟨calls, b', hover, hreplay⟩ := exists_replaySheets b hchunk copy.sheets
  have hserves : s.Serves b := by
    refine ⟨h.kind, h.workbook, fun w hw => ?_⟩
    rw [h.watch] at hw
    cases hw
  refine ⟨calls.countP Call.isRangeWrite, b', ?_, hover, fun w hw => ⟨calls, ?_, rfl⟩⟩
  · have hend : (replaySnapshot b.descriptor copy rows cols).perform s = _ :=
      (hreplay s hserves).attempt_eq
    rwa [served_of_watch_eq_none h.watch] at hend
  · have hwatched : ({ s with watch := some w } : Store).Serves b := by
      refine ⟨h.kind, h.workbook, fun v hv => ?_⟩
      obtain rfl := Option.some.inj hv
      exact hw
    exact (hreplay _ hwatched).attempt_eq

/-- A copy with a sheet that the workbook does not have, and one that it lists twice; the last of
these gives one cell twice and another one as empty. -/
def repeatedCopy : Snapshot where
  sheets :=
    [⟨defaultSheet, defaultSheet, [⟨0, 0, .ofValue (.bool true)⟩, ⟨0, 1, .ofFormula "=2"⟩]⟩,
      ⟨"Other", "Other", [⟨0, 0, .ofValue (.bool true)⟩]⟩,
      ⟨defaultSheet, defaultSheet, [⟨2, 0, .ofValue (.int 1)⟩, ⟨1, 1, .empty⟩,
        ⟨2, 0, { value := .int 2, formula := some "=3" }⟩]⟩]

theorem replay_overwrites_repeated :
    ({ workbook := some sampleWorkbook } : Store).Holds sampleWorkbook ∧
      max 2 1 * max 0 1 ≤ rangeLimit ∧ ({} : Watch).LetsPass ∧
      ∃ n b', (replaySnapshot sampleWorkbook.descriptor repeatedCopy 2 0).perform
          { workbook := some sampleWorkbook } = (.ok n, { workbook := some b' }) ∧
        Overwritten sampleWorkbook repeatedCopy.sheets b' ∧
        ∀ w : Watch, w.LetsPass → ∃ calls : List Call,
          (replaySnapshot sampleWorkbook.descriptor repeatedCopy 2 0).perform
              { workbook := some sampleWorkbook, watch := some w } =
            (.ok n, { workbook := some b', watch := some { w with calls := w.calls ++ calls } }) ∧
          calls.countP Call.isRangeWrite = n :=
  ⟨⟨rfl, rfl, rfl⟩, by decide, ⟨rfl, rfl, rfl, rfl⟩,
    replay_overwrites ⟨rfl, rfl, rfl⟩ repeatedCopy (by decide)⟩

end Store
end SheetSync
