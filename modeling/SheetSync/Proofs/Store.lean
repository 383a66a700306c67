import SheetSync.Link
import SheetSync.Proofs.Activity
import SheetSync.Proofs.Keyed
import SheetSync.Proofs.Plan
/-!
Writes to a local store. What a write makes of a workbook is a plain function, `Workbook.after`: it
changes one sheet, if that is there, and nothing else. A store that is not watched carries out every
write; one that is watched may refuse, and then keeps its workbook.
-/
namespace SheetSync

namespace Workbook

/-- The content at a position of a sheet, empty where there is none. -/
def cell (b : Workbook) (sheet : String) (p : Position) : CellState :=
  (b.cell? sheet p).getD .empty

theorem cell_eq (b : Workbook) (sheet : String) (p : Position) :
    b.cell sheet p = ((b.sheets.get? sheet).map fun s => s.read p).getD .empty := by
  unfold cell cell? Sheet.read
  cases b.sheets.get? sheet <;> rfl

/-- The workbook that takes a write, unless it refuses. -/
def receive (b : Workbook) : Write → Except StoreError Workbook
  | .range sheet rect values => do
    let _ ← checkRange rect
    let _ ← checkShape rect values
    b.writeAll sheet (rect.entries values)
  | .point sheet p e => b.writeAll sheet [(p, e)]

/-- The workbook after a write, which it may have refused. -/
def after (b : Workbook) (w : Write) : Workbook :=
  match b.receive w with
  | .ok b' => b'
  | .error _ => b

theorem checkShape_eq_ok_iff {rect : Rect} {values : List (List CellEdit)} :
    checkShape rect values = .ok () ↔
      values.length = rect.rows ∧ ∀ line ∈ values, line.length = rect.cols := by
  unfold checkShape
  by_cases hrows : values.length = rect.rows
  · rw [if_neg (not_not.mpr hrows)]
    have hfind : values.find? (fun line => line.length ≠ rect.cols) = none ↔
        ∀ line ∈ values, line.length = rect.cols := by simp
    rw [← hfind]
    cases values.find? (fun line => line.length ≠ rect.cols) <;> simp [hrows]
  · simp [hrows]

theorem checkRange_eq_ok_iff {rect : Rect} :
    checkRange rect = .ok () ↔ rect.isValid ∧ rect.area ≤ rangeLimit := by
  unfold checkRange
  by_cases hvalid : rect.isValid
  · by_cases harea : rangeLimit < rect.area
    · simp [hvalid, harea]
    · simp [hvalid, harea, Nat.le_of_not_lt harea]
  · simp [hvalid]

theorem receive_of_fits {b : Workbook} {w : Write} (hfits : w.Fits rangeLimit) :
    b.receive w = b.writeAll w.sheet w.entries := by
  cases w with
  | point => rfl
  | range sheet rect values =>
    obtain ⟨hvalid, harea, hrows, hcols⟩ := hfits
    rw [receive, checkRange_eq_ok_iff.mpr ⟨hvalid, harea⟩, checkShape_eq_ok_iff.mpr ⟨hrows, hcols⟩]
    rfl

theorem writeAll_of_get?_eq_some {b : Workbook} {id : String} {s : Sheet}
    (hs : b.sheets.get? id = some s) (edits : List (Position × CellEdit)) :
    b.writeAll id edits =
      .ok { b with
        sheets := b.sheets.set id (s.putAll (edits.map fun e => (e.1, e.2.toState))) } := by
  simp only [writeAll, sheet, hs]
  rfl

theorem writeAll_of_get?_eq_none {b : Workbook} {id : String} (hs : b.sheets.get? id = none)
    (edits : List (Position × CellEdit)) : b.writeAll id edits = .error (.sheetNotFound id) := by
  simp only [writeAll, sheet, hs]
  rfl

/-- Only a write that fits its range is received. -/
theorem fits_of_receive {b b' : Workbook} {w : Write} (h : b.receive w = .ok b') :
    w.Fits rangeLimit := by
  cases w with
  | point => trivial
  | range sheet rect values =>
    have hrange : checkRange rect = .ok () := by
      cases hr : checkRange rect with
      | ok => rfl
      | error e =>
        rw [receive, hr] at h
        cases h
    have hshape : checkShape rect values = .ok () := by
      cases hs : checkShape rect values with
      | ok => rfl
      | error e =>
        rw [receive, hrange, hs] at h
        cases h
    obtain ⟨hvalid, harea⟩ := checkRange_eq_ok_iff.mp hrange
    exact ⟨hvalid, harea, checkShape_eq_ok_iff.mp hshape⟩

theorem after_of_receive {b b' : Workbook} {w : Write} (h : b.receive w = .ok b') :
    b.after w = b' := by
  rw [after, h]

/-- A workbook stays what it was when it refuses a write. -/
theorem after_of_refused {b : Workbook} {w : Write} (h : (b.receive w).isOk = false) :
    b.after w = b := by
  unfold after
  cases hr : b.receive w with
  | error => rfl
  | ok =>
    rw [hr] at h
    cases h

/-- A write that fits its range is received by a workbook that has the sheet. -/
theorem receive_eq_ok {b : Workbook} {w : Write} (hfits : w.Fits rangeLimit)
    (hsheet : (b.sheets.get? w.sheet).isSome) : b.receive w = .ok (b.after w) := by
  obtain ⟨s, hs⟩ := Option.isSome_iff_exists.mp hsheet
  have hreceive := (receive_of_fits hfits).trans (writeAll_of_get?_eq_some hs w.entries)
  rw [hreceive, after_of_receive hreceive]

theorem isOk_receive (b : Workbook) (w : Write) :
    (b.receive w).isOk ↔ w.Fits rangeLimit ∧ (b.sheets.get? w.sheet).isSome := by
  constructor
  · intro h
    cases hr : b.receive w with
    | error e =>
      rw [hr] at h
      cases h
    | ok b' =>
      have hfits := fits_of_receive hr
      refine ⟨hfits, ?_⟩
      rw [receive_of_fits hfits] at hr
      cases hs : b.sheets.get? w.sheet with
      | some s => rfl
      | none =>
        rw [writeAll_of_get?_eq_none hs] at hr
        cases hr
  · rintro ⟨hfits, hsheet⟩
    rw [receive_eq_ok hfits hsheet]
    rfl

/-- A write changes one sheet, if it changes anything. -/
theorem after_eq (b : Workbook) (w : Write) : b.after w = b ∨ ∃ s, b.sheets.get? w.sheet = some s ∧
    b.after w = { b with sheets := b.sheets.set w.sheet (w.onto s) } := by
  cases hr : b.receive w with
  | error e =>
    left
    rw [after, hr]
  | ok b' =>
    rw [after_of_receive hr]
    rw [receive_of_fits (fits_of_receive hr)] at hr
    cases hs : b.sheets.get? w.sheet with
    | none =>
      rw [writeAll_of_get?_eq_none hs] at hr
      cases hr
    | some s =>
      rw [writeAll_of_get?_eq_some hs] at hr
      exact .inr ⟨s, rfl, (Except.ok.inj hr).symm⟩

/-- Whether two workbooks differ in their cells only. -/
structure SameFrame (b b' : Workbook) : Prop where
  descriptor : b'.descriptor = b.descriptor
  names : b'.names = b.names
  tables : b'.tables = b.tables

theorem isSome_get?_iff {b : Workbook} {id : String} :
    (b.sheets.get? id).isSome ↔ ∃ info ∈ b.descriptor.sheets, info.id = id := by
  rw [← Option.ne_none_iff_isSome, ne_eq, Keyed.get?_eq_none_iff, not_not]
  simp [Keyed.keys, descriptor]

/-- The descriptor lists the sheets that the workbook has. -/
theorem isSome_sheet?_descriptor (b : Workbook) (id : String) :
    (b.descriptor.sheet? id).isSome = (b.sheets.get? id).isSome := by
  rw [Bool.eq_iff_iff, isSome_get?_iff, Descriptor.sheet?, List.find?_isSome]
  simp

theorem SameFrame.isSome_get?_eq {b b' : Workbook} (h : SameFrame b b') (id : String) :
    (b'.sheets.get? id).isSome = (b.sheets.get? id).isSome := by
  rw [Bool.eq_iff_iff, isSome_get?_iff, isSome_get?_iff, h.descriptor]

theorem SameFrame.refl (b : Workbook) : SameFrame b b := ⟨rfl, rfl, rfl⟩

theorem SameFrame.trans {b b' b'' : Workbook} (h : SameFrame b b') (h' : SameFrame b' b'') :
    SameFrame b b'' :=
  ⟨h'.descriptor.trans h.descriptor, h'.names.trans h.names, h'.tables.trans h.tables⟩

theorem keys_sheets (b : Workbook) :
    Keyed.keys b.sheets = b.descriptor.sheets.map (·.id) := by
  rw [Keyed.keys, descriptor, List.map_map]
  rfl

theorem SameFrame.keys {b b' : Workbook} (h : SameFrame b b') :
    Keyed.keys b'.sheets = Keyed.keys b.sheets := by
  rw [keys_sheets, keys_sheets, h.descriptor]

theorem sameFrame_of_writeAll {b b' : Workbook} {id : String} {edits : List (Position × CellEdit)}
    (h : b.writeAll id edits = .ok b') : SameFrame b b' := by
  cases hs : b.sheets.get? id with
  | none =>
    rw [writeAll_of_get?_eq_none hs] at h
    cases h
  | some s =>
    rw [writeAll_of_get?_eq_some hs] at h
    obtain rfl := Except.ok.inj h
    refine ⟨?_, rfl, rfl⟩
    have hsheets := Keyed.map_set (f := fun e : String × Sheet => (⟨e.1, e.2.name⟩ : SheetInfo)) hs
      (a := s.putAll (edits.map fun e => (e.1, e.2.toState))) (by simp)
    simp only [descriptor, hsheets]

theorem sameFrame_after (b : Workbook) (w : Write) : SameFrame b (b.after w) := by
  rcases b.after_eq w with h | ⟨s, hs, h⟩
  · rw [h]
    exact .refl b
  · rw [h]
    refine ⟨?_, rfl, rfl⟩
    have hsheets := Keyed.map_set (f := fun e : String × Sheet => (⟨e.1, e.2.name⟩ : SheetInfo)) hs
      (a := w.onto s) (by simp [Write.onto])
    simp only [descriptor, hsheets]

theorem sameFrame_foldl_after (b : Workbook) (ws : List Write) :
    SameFrame b (ws.foldl after b) := by
  induction ws generalizing b with
  | nil => exact .refl b
  | cons w ws ih => exact (b.sameFrame_after w).trans (ih _)

/-- A write changes the sheet that it names. -/
theorem get?_sheets_after {b : Workbook} {w : Write} (hfits : w.Fits rangeLimit) (id : String) :
    (b.after w).sheets.get? id =
      (b.sheets.get? id).map fun s => if id = w.sheet then w.onto s else s := by
  rw [after, receive_of_fits hfits]
  cases hs : b.sheets.get? w.sheet with
  | none =>
    rw [writeAll_of_get?_eq_none hs]
    by_cases hid : id = w.sheet
    · rw [hid, hs]
      rfl
    · simp [hid]
  | some s =>
    rw [writeAll_of_get?_eq_some hs]
    -- the sheet is there, so setting it adds none
    show Keyed.get? id (b.sheets.set w.sheet (w.onto s)) = _
    rw [Keyed.get?_set]
    by_cases hid : id = w.sheet
    · simp [hid, hs]
    · simp [hid]

/-- A sheet takes the writes that name it, one after the other. -/
theorem get?_sheets_foldl_after_filter {b : Workbook} {ws : List Write}
    (hws : ∀ w ∈ ws, w.Fits rangeLimit) (id : String) :
    (ws.foldl after b).sheets.get? id = (b.sheets.get? id).map fun s =>
      (ws.filter (·.sheet = id)).foldl (fun s w => w.onto s) s := by
  induction ws generalizing b with
  | nil => simp
  | cons w ws ih =>
    rw [List.foldl_cons, ih fun v hv => hws v (List.mem_cons_of_mem w hv),
      get?_sheets_after (hws w List.mem_cons_self), Option.map_map]
    congr 1
    funext s
    by_cases hid : w.sheet = id
    · simp [hid]
    · simp [hid, Ne.symm hid]

/-- Writes to one sheet change that sheet, one after the other. -/
theorem get?_sheets_foldl_after {b : Workbook} {ws : List Write} {sheet : String}
    (hws : ∀ w ∈ ws, w.Fits rangeLimit ∧ w.sheet = sheet) (id : String) :
    (ws.foldl after b).sheets.get? id =
      (b.sheets.get? id).map fun s => if id = sheet then ws.foldl (fun s w => w.onto s) s else s := by
  rw [get?_sheets_foldl_after_filter fun w hw => (hws w hw).1]
  congr 1
  funext s
  by_cases hid : id = sheet
  · rw [if_pos hid, List.filter_eq_self.mpr fun w hw => by simp [(hws w hw).2, hid]]
  · rw [if_neg hid, List.filter_eq_nil_iff.mpr fun w hw => by simp [(hws w hw).2, Ne.symm hid]]
    rfl

/-- Where a workbook is saved does not matter to a write. -/
theorem after_withPath (b : Workbook) (path : Option String) (w : Write) :
    { b with path }.after w = { b.after w with path } := by
  have hall : ∀ edits, { b with path }.writeAll w.sheet edits =
      (b.writeAll w.sheet edits).map ({ · with path }) := by
    intro edits
    cases hs : b.sheets.get? w.sheet with
    | none =>
      rw [writeAll_of_get?_eq_none hs, writeAll_of_get?_eq_none (b := { b with path }) hs]
      rfl
    | some s =>
      rw [writeAll_of_get?_eq_some hs, writeAll_of_get?_eq_some (b := { b with path }) hs]
      rfl
  -- the checks of a table come before the workbook is looked at
  have hreceive : { b with path }.receive w = (b.receive w).map ({ · with path }) := by
    cases w with
    | point sheet p e => exact hall _
    | range sheet rect values =>
      simp only [receive]
      cases checkRange rect with
      | error => rfl
      | ok =>
        cases checkShape rect values with
        | error => rfl
        | ok => exact hall _
  unfold after
  rw [hreceive]
  cases b.receive w <;> rfl

theorem foldl_after_withPath (b : Workbook) (path : Option String) (ws : List Write) :
    ws.foldl after { b with path } = { ws.foldl after b with path } := by
  induction ws generalizing b with
  | nil => rfl
  | cons w ws ih => rw [List.foldl_cons, after_withPath, ih, List.foldl_cons]

end Workbook

namespace Store

variable {γ : Type} {rely : Pause → Store → γ → Store → γ → Prop} {s : Store} {g : γ}

/-- The calls that a watched store logged. -/
def calls (s : Store) : List Call := (s.watch.map fun w => w.calls.toList).getD []

/-- The store after it logged a call, if it is watched. -/
def logged (call : Call) (s : Store) : Store :=
  { s with watch := s.watch.map fun w => { w with calls := w.calls.push call } }

/-- The store after one of the reads that are to fail has failed. -/
def spent (s : Store) : Store :=
  { s with watch := s.watch.map fun w => { w with failingReads := w.failingReads - 1 } }

@[simp] theorem calls_spent (s : Store) : s.spent.calls = s.calls := by
  cases hw : s.watch <;> simp [spent, calls, hw]

theorem logged_of_watch_eq_none (call : Call) (hwatch : s.watch = none) : s.logged call = s := by
  obtain ⟨kind, workbook, watch, files⟩ := s
  obtain rfl : watch = none := hwatch
  rfl

theorem spent_of_watch_eq_none (hwatch : s.watch = none) : s.spent = s := by
  obtain ⟨kind, workbook, watch, files⟩ := s
  obtain rfl : watch = none := hwatch
  rfl

theorem calls_logged (call : Call) (hwatch : s.watch.isSome) :
    (s.logged call).calls = s.calls ++ [call] := by
  obtain ⟨w, hw⟩ := Option.isSome_iff_exists.mp hwatch
  simp [logged, calls, hw]

/-! ## Lists of names and tables -/

/-- The defined names that a store lists, none where it lists nothing. -/
def listedNames (s : Store) : List DefinedName := (listNames.perform s).1.toOption.getD []

def listedTables (s : Store) : List Table := (listTables.perform s).1.toOption.getD []

@[simp] theorem listedNames_logged (call : Call) (s : Store) :
    (s.logged call).listedNames = s.listedNames := by
  obtain ⟨kind, workbook, watch, files⟩ := s
  cases kind <;> cases workbook <;> rfl

@[simp] theorem listedTables_logged (call : Call) (s : Store) :
    (s.logged call).listedTables = s.listedTables := by
  obtain ⟨kind, workbook, watch, files⟩ := s
  cases kind <;> cases workbook <;> rfl

/-! ## What a write logs -/

/-- The call that a watched store logs for a write. -/
def callOf : Write → Call
  | .range sheet rect _ => .setRange sheet rect
  | .point sheet p _ => .setCell sheet p

theorem keeps_passWrite {I : Store → γ → Prop}
    (hrely : ∀ s g t h, rely .clock s g t h → I s g → I t h) (sheet : String) :
    Keeps rely I (passWrite sheet) := by
  have hswitches : Keeps rely I switches := .bind .get fun _ => .pure _
  refine .bind hswitches fun w => ?_
  have hlast : Keeps rely I (switches >>= fun w =>
      if sheet ∈ w.closedSheets then throw (.rejected s!"writes to {sheet} rejected")
      else pure () : StoreM Unit) :=
    .bind hswitches fun w => .ite (fun _ => .throw _) (fun _ => .pure _)
  exact .ite (fun _ => .bind (.pause hrely) fun _ => hlast) fun _ => hlast

/-- A write is logged with one call, whether it is refused or not, and changes the workbook at
most. -/
theorem exists_perform_apply_eq (w : Write) (s : Store) :
    ∃ workbook, ((apply w).perform s).2 = { s.logged (callOf w) with workbook } := by
  -- a write only waits for the clock, and alone, so nothing may happen meanwhile
  let rely : Pause → Store → Unit → Store → Unit → Prop := fun _ s _ t _ => t = s
  let I : Store → Unit → Prop := fun t _ => ∃ workbook, t = { s.logged (callOf w) with workbook }
  have hpass : ∀ sheet, Keeps rely I (passWrite sheet) :=
    keeps_passWrite (by rintro s _ _ _ rfl hs; exact hs)
  have hcurrent : Keeps rely I current := by
    refine .bind .get fun t => ?_
    cases t.workbook with
    | none => exact .throw _
    | some b => exact .pure _
  have hset : ∀ b, Keeps rely I (setCurrent b) := fun b => .modify fun t _ ⟨_, ht⟩ =>
    ⟨some b, by rw [ht]⟩
  -- first the call is logged; every step after that keeps it so
  have h : Achieves rely (apply w) s () fun _ t _ => I t () := by
    cases w with
    | point sheet p e =>
      refine achieves_bind.mpr ((achieves_modify _).mpr ?_)
      refine Keeps.bind (hpass sheet) (fun _ => .bind .get fun t => ?_) _ _ ⟨s.workbook, rfl⟩
      split
      · exact .pure _
      · exact .bind hcurrent fun _ => .bind (.liftM _) hset
    | range sheet rect values =>
      refine achieves_bind.mpr ((achieves_modify _).mpr ?_)
      refine Keeps.bind (hpass sheet) (fun _ => .bind .get fun t => ?_) _ _ ⟨s.workbook, rfl⟩
      split
      · exact .pure _
      · exact .bind (.liftM _) fun _ => .bind (.liftM _) fun _ => .bind hcurrent fun _ =>
          .bind (.liftM _) hset
  exact achieves_attempt.mp h

theorem isSome_watch_perform_apply (w : Write) (s : Store) :
    ((apply w).perform s).2.watch.isSome = s.watch.isSome := by
  obtain ⟨workbook, h⟩ := exists_perform_apply_eq w s
  rw [h]
  exact Option.isSome_map

theorem calls_perform_apply (hwatch : s.watch.isSome) (w : Write) :
    ((apply w).perform s).2.calls = s.calls ++ [callOf w] := by
  obtain ⟨workbook, h⟩ := exists_perform_apply_eq w s
  rw [h]
  exact calls_logged (callOf w) hwatch

/-- Whatever becomes of a write, the workbook differs in its cells at most. -/
theorem descriptor_perform_apply (w : Write) (s : Store) :
    ((apply w).perform s).2.workbook.map Workbook.descriptor =
      s.workbook.map Workbook.descriptor := by
  let rely : Pause → Store → Unit → Store → Unit → Prop := fun _ s _ t _ => t = s
  let I : Store → Unit → Prop := fun t _ =>
    t.workbook.map Workbook.descriptor = s.workbook.map Workbook.descriptor
  have hlog : ∀ call, Keeps rely I (log call) := fun call => .modify fun _ _ ht => ht
  have hpass : ∀ sheet, Keeps rely I (passWrite sheet) :=
    keeps_passWrite (by rintro s _ _ _ rfl hs; exact hs)
  have hwrite : ∀ sheet edits, Keeps rely I (do
      setCurrent (← (← current).writeAll sheet edits)) := by
    intro sheet edits t _ ht
    refine achieves_bind.mpr (achieves_bind.mpr (achieves_get.mpr ?_))
    dsimp only
    cases hbook : t.workbook with
    | none => exact (achieves_throw _).mpr ht
    | some b =>
      refine (achieves_pure _).mpr (achieves_bind.mpr ((achieves_liftM _).mpr ?_))
      cases hall : b.writeAll sheet edits with
      | error e => exact ht
      | ok b' =>
        have hframe := Workbook.sameFrame_of_writeAll hall
        refine (achieves_modify _).mpr ?_
        show some b'.descriptor = _
        rw [hframe.descriptor, ← ht, hbook]
        rfl
  have h : Keeps rely I (apply w) := by
    cases w with
    | point sheet p e =>
      refine .bind (hlog _) fun _ => .bind (hpass sheet) fun _ => .bind .get fun t => ?_
      split
      · exact .pure _
      · exact hwrite sheet _
    | range sheet rect values =>
      refine .bind (hlog _) fun _ => .bind (hpass sheet) fun _ => .bind .get fun t => ?_
      split
      · exact .pure _
      · exact .bind (.liftM _) fun _ => .bind (.liftM _) fun _ => hwrite sheet _
  exact achieves_attempt.mp (h s () rfl)

/-! ## Stores that are not watched -/

section Unwatched

variable (hwatch : s.watch = none)
include hwatch

theorem achieves_log_iff (call : Call) {post : Except StoreError Unit → Store → γ → Prop} :
    Achieves rely (log call) s g post ↔ post (.ok ()) s g := by
  refine (achieves_modify _).trans ?_
  show post _ (s.logged call) g ↔ _
  rw [logged_of_watch_eq_none call hwatch]

theorem achieves_passWrite_iff (sheet : String)
    {post : Except StoreError Unit → Store → γ → Prop} :
    Achieves rely (passWrite sheet) s g post ↔ post (.ok ()) s g := by
  simp [passWrite, switches, achieves_bind, hwatch]

/-- A local store that is not watched gives a write to its workbook. -/
theorem achieves_apply_iff {b : Workbook} (hkind : s.kind = .local) (hbook : s.workbook = some b)
    (w : Write) {post : Except StoreError Unit → Store → γ → Prop} :
    Achieves rely (apply w) s g post ↔
      post ((b.receive w).map fun _ => ()) { s with workbook := some (b.after w) } g := by
  obtain ⟨kind, workbook, watch, files⟩ := s
  obtain rfl : kind = .local := hkind
  obtain rfl : workbook = some b := hbook
  cases w with
  | point sheet p e =>
    simp only [apply, setCell, setCurrent, current, achieves_bind, achieves_log_iff hwatch,
      achieves_passWrite_iff hwatch, achieves_get, achieves_pure, achieves_liftM,
      achieves_modify, Workbook.receive, Workbook.after]
    cases b.writeAll sheet [(p, e)] <;> rfl
  | range sheet rect values =>
    simp only [apply, setRange, setCurrent, current, achieves_bind, achieves_log_iff hwatch,
      achieves_passWrite_iff hwatch, achieves_get, achieves_liftM, achieves_modify,
      Workbook.receive, Workbook.after]
    cases checkRange rect with
    | error e => rfl
    | ok =>
      cases checkShape rect values with
      | error e => rfl
      | ok =>
        simp only [achieves_pure]
        cases b.writeAll sheet (rect.entries values) <;> rfl

end Unwatched

/-- Without a workbook every write is refused; one of a table may fail at its range before. -/
theorem exists_perform_apply_of_none (w : Write) (files : FileTree) : ∃ e,
    (apply w).perform ⟨.local, none, none, files⟩ = (.error e, ⟨.local, none, none, files⟩) := by
  cases w with
  | point => exact ⟨_, rfl⟩
  | range sheet rect values =>
    have h : (apply (.range sheet rect values)).perform ⟨.local, none, none, files⟩ =
        StoreM.perform (do
          let _ ← checkRange rect
          let _ ← checkShape rect values
          setCurrent (← (← current).writeAll sheet (rect.entries values)) : StoreM Unit)
        ⟨.local, none, none, files⟩ := rfl
    rw [h]
    cases checkRange rect with
    | error e => exact ⟨e, rfl⟩
    | ok => cases checkShape rect values <;> exact ⟨_, rfl⟩

/-- A local store that is not watched, and its workbook. -/
structure Holds (s : Store) (b : Workbook) : Prop where
  kind : s.kind = .local
  watch : s.watch = none
  workbook : s.workbook = some b

theorem Holds.listedNames {b : Workbook} (h : s.Holds b) : s.listedNames = b.names := by
  obtain ⟨kind, workbook, watch, files⟩ := s
  obtain ⟨rfl, rfl, rfl⟩ := h
  rfl

/-- A local store that is not watched carries out a write on its workbook. -/
theorem Holds.perform_apply {b : Workbook} (h : s.Holds b) (w : Write) : (apply w).perform s =
      ((b.receive w).map fun _ => (), { s with workbook := some (b.after w) }) := by
  have happly : Achieves (fun _ s (_ : Unit) t _ => t = s) (apply w) s () fun r t _ =>
      (r, t) = ((b.receive w).map fun _ => (), { s with workbook := some (b.after w) }) :=
    (achieves_apply_iff h.watch h.kind h.workbook w).mpr rfl
  exact achieves_attempt.mp happly

theorem Holds.after {b : Workbook} (h : s.Holds b) (w : Write) :
    ((apply w).perform s).2.Holds (b.after w) := by
  rw [h.perform_apply]
  exact ⟨h.kind, h.watch, rfl⟩

end Store

end SheetSync
