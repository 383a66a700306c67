import SheetSync.Proofs.Document
import SheetSync.Proofs.Queue
import SheetSync.Proofs.Store
/-!
Documents and stores in step. An action on the document enqueues what it calls for and does nothing
else to the link, so what waits is the history of the changes that are not yet carried out. Main
statement: `InStepOn.edit`, by which a document and its store, once all that waits is carried out,
show the same after an edit if they showed the same before it.
-/
namespace SheetSync

namespace Link

variable {l : Link}

/-- The writes that wait, in their order. -/
def pending (l : Link) : List Write := l.queue.actions

/-- The writes that it calls for when a listener is told something. -/
def called (maxArea : Nat) (t : Delivery) : List Write :=
  match t.listener with
  | .watcher _ _ _ => []
  | .forward => if t.event.source = .load then [] else Plan.writes maxArea t.event.deltas

/-- The writes that an action on the document calls for, with all that is answered. -/
def planned (l : Link) (a : DocumentAction) : List Write :=
  (l.document.perform a).2.flatMap (called l.maxWriteArea)

/-- The link after the first write that waits was carried out. -/
def carry (l : Link) : Link :=
  { l with
    queue := (l.queue.runOne runWrite l.store).1
    store := (l.queue.runOne runWrite l.store).2 }

/-! ## Actions -/

theorem forward_eq (l : Link) (t : Delivery) :
    l.forward t =
      { l with queue := l.queue.enqueueAll ((called l.maxWriteArea t).map .leaf) } := by
  obtain ⟨id, listener, e⟩ := t
  cases listener with
  | watcher => rfl
  | forward =>
    by_cases he : e.source = .load
    · simp [forward, called, he, Queue.enqueueAll]
    · simp [forward, called, he, batch, submitAll]

theorem foldl_forward (l : Link) (told : List Delivery) :
    told.foldl forward l =
      { l with
        queue := l.queue.enqueueAll ((told.flatMap (called l.maxWriteArea)).map .leaf) } := by
  induction told generalizing l with
  | nil => rfl
  | cons t told ih =>
    rw [List.foldl_cons, forward_eq, ih, List.flatMap_cons, List.map_append,
      Queue.enqueueAll_append]

theorem perform_eq (l : Link) (a : DocumentAction) :
    l.perform a =
      { l with
        document := (l.document.perform a).1
        queue := l.queue.enqueueAll ((l.planned a).map .leaf) } :=
  foldl_forward { l with document := (l.document.perform a).1 } _

@[simp] theorem store_perform (l : Link) (a : DocumentAction) : (l.perform a).store = l.store := by
  rw [perform_eq]

theorem pending_perform (l : Link) (a : DocumentAction) :
    (l.perform a).pending = l.pending ++ l.planned a := by
  rw [perform_eq]
  exact Queue.actions_enqueueAll _ _

/-- Without anyone who hands changes on, no action calls for writes. -/
theorem planned_eq_nil (hdoc : l.document.WellFormed) (hnone : l.document.forwards = [])
    (a : DocumentAction) : l.planned a = [] := by
  refine List.flatMap_eq_nil_iff.mpr fun t ht => ?_
  have hne := hdoc.not_forward_of_told hnone a t ht
  cases hl : t.listener with
  | watcher => simp [called, hl]
  | forward => exact absurd hl hne

/-! ## Carrying writes out -/

theorem drain_waiting (hplain : l.queue.IsPlain) : l.drain.queue.waiting = [] :=
  (hplain.drain runWrite l.store).1

theorem pending_carry (hplain : l.queue.IsPlain) : l.carry.pending = l.pending.tail :=
  hplain.actions_runOne runWrite l.store

theorem store_carry (l : Link) :
    l.carry.store = l.pending.head?.elim l.store fun w => (runWrite w l.store).2 :=
  Queue.runOne_state runWrite l.queue l.store

theorem iterate_carry (n : Nat) (l : Link) :
    carry^[n] l =
      { l with
        queue := ((Queue.step runWrite)^[n] (l.queue, l.store)).1
        store := ((Queue.step runWrite)^[n] (l.queue, l.store)).2 } := by
  induction n generalizing l with
  | zero => rfl
  | succ n ih =>
    rw [Function.iterate_succ_apply, ih, Function.iterate_succ_apply]
    rfl

/-- A turn carries out some of the writes that wait. -/
theorem exists_turn_eq (hplain : l.queue.IsPlain) : ∃ n, l.turn = carry^[n] l := by
  obtain ⟨n, hn⟩ := hplain.exists_turn_eq runWrite l.store
  refine ⟨n, ?_⟩
  rw [iterate_carry, ← hn]
  rfl

theorem exists_drain_eq (l : Link) : ∃ n, l.drain = carry^[n] l := by
  obtain ⟨n, hn⟩ := Queue.exists_runMany_eq runWrite l.queue.work l.queue l.store
  refine ⟨n, ?_⟩
  rw [iterate_carry, ← hn]
  rfl

/-! ## Documents and stores in step -/

/-- Whether the store has a workbook that shows what the document does. -/
def Agrees (l : Link) : Prop := ∃ b, l.store.workbook = some b ∧
  ∀ id p, CellEdit.ofState (b.cell id p) = .ofState (l.document.cell id p)

/-- The store has a workbook that shows what the document does on some sheets, once it took what
waits. -/
structure InStepOn (ids : String → Prop) (l : Link) (b : Workbook) : Prop where
  holds : l.store.Holds b
  fits : ∀ w ∈ l.pending, w.Fits rangeLimit
  shows : ∀ id, ids id → ∀ p, CellEdit.ofState ((l.pending.foldl Workbook.after b).cell id p) =
    .ofState (l.document.cell id p)

/-- The store has a workbook that shows what the document does, once it took what waits. -/
abbrev InStep (l : Link) (b : Workbook) : Prop := l.InStepOn (fun _ => True) b

variable {b : Workbook} {ids : String → Prop}

/-- Changes are planned once for each of those who hand them on; watchers call for nothing. -/
theorem flatMap_called (maxArea : Nat) (e : ChangeEvent) (listeners : List (Nat × Listener)) :
    (listeners.map fun l => (⟨l.1, l.2, e⟩ : Delivery)).flatMap (called maxArea) =
      ((listeners.filter (·.2 = .forward)).map Prod.fst).flatMap fun _ =>
        if e.source = .load then [] else Plan.writes maxArea e.deltas := by
  induction listeners with
  | nil => rfl
  | cons l listeners ih =>
    obtain ⟨id, l⟩ := l
    rw [List.map_cons, List.flatMap_cons, ih]
    cases l with
    | forward => rfl
    | watcher => rfl

/-- Where no one answers, an action calls for what is planned for its own event. -/
theorem planned_quiet {a : DocumentAction} (hquiet : ∀ e ∈ l.document.listeners, e.2.IsQuiet) :
    l.planned a = ((l.document.change a).2.map fun e => l.document.forwards.flatMap fun _ =>
      if e.source = .load then [] else Plan.writes l.maxWriteArea e.deltas).getD [] := by
  obtain ⟨-, -, htold⟩ := Document.perform_quiet (d := l.document) (a := a) fun _ _ _ => hquiet
  rw [planned, htold]
  cases (l.document.change a).2 with
  | none => rfl
  | some e => exact flatMap_called _ _ _

namespace InStepOn

/-- Only the content of the document, what waits and the store matter. -/
theorem congr {k : Link} (h : l.InStepOn ids b) (hstore : k.store = l.store)
    (hpending : k.pending = l.pending) (hsheets : k.document.sheets = l.document.sheets) :
    k.InStepOn ids b where
  holds := by
    rw [hstore]
    exact h.holds
  fits := by
    rw [hpending]
    exact h.fits
  shows id hid p := by
    rw [hpending, Document.cell, hsheets]
    exact h.shows id hid p

/-- An action that nobody is told of and that leaves the content as it is. -/
theorem perform_silent (h : l.InStepOn ids b) {a : DocumentAction}
    (hchange : (l.document.change a).2 = none)
    (hsheets : (l.document.change a).1.sheets = l.document.sheets) : (l.perform a).InStepOn ids b := by
  obtain ⟨hkept, -, htold⟩ := Document.perform_quiet (d := l.document) (a := a) (by
    intro e he
    rw [hchange] at he
    cases he)
  rw [hchange] at htold
  have hplanned : l.planned a = [] := by
    rw [planned, htold]
    rfl
  refine h.congr (store_perform l a) ?_ ?_
  · rw [pending_perform, hplanned, List.append_nil]
  · rw [perform_eq]
    exact hkept.trans hsheets

/-- What an edit shows, and the writes that are planned for it. -/
theorem planned_edit {id : Nat} (hforwards : l.document.forwards = [id])
    (hquiet : ∀ e ∈ l.document.listeners, e.2.IsQuiet) {source : ChangeSource}
    (hsource : source ≠ .load) {sheet : String} {cells : List (Position × CellState)}
    (hne : cells ≠ []) (hcells : ∀ c ∈ cells, c.1.InGrid) :
    (l.perform (.edit source sheet cells)).document.sheets = l.document.sheets.set sheet
        (((l.document.sheets.get? sheet).getD { name := sheet }).putAll cells) ∧
      l.planned (.edit source sheet cells) = Plan.sheetWrites l.maxWriteArea sheet
        (cells.map fun c => (c.1, CellEdit.ofState c.2)) := by
  -- an edit without cells would tell nobody of anything
  obtain ⟨c, rest, rfl⟩ := List.exists_cons_of_ne_nil hne
  obtain ⟨hkept, -, -⟩ := Document.perform_quiet (d := l.document)
    (a := .edit source sheet (c :: rest)) fun _ _ _ => hquiet
  have hevent : (l.document.change (.edit source sheet (c :: rest))).2 = some ⟨source,
      (Document.setCells sheet ((l.document.sheets.get? sheet).getD { name := sheet })
        (c :: rest)).2⟩ := rfl
  constructor
  · rw [perform_eq]
    refine hkept.trans ?_
    show l.document.sheets.set sheet (Document.setCells sheet _ (c :: rest)).1 = _
    rw [Document.setCells_fst]
  · rw [planned_quiet hquiet, hevent, Option.map_some, Option.getD_some, hforwards,
      List.flatMap_singleton, if_neg hsource]
    exact Plan.writes_setCells l.maxWriteArea sheet _ hne hcells

/-- An edit leaves the cells that none of the writes planned for it reaches. -/
theorem cell_edit_of_unreached {id : Nat} (hforwards : l.document.forwards = [id])
    (hquiet : ∀ e ∈ l.document.listeners, e.2.IsQuiet) {source : ChangeSource}
    (hsource : source ≠ .load) {sheet other : String} {cells : List (Position × CellState)}
    (hcells : ∀ c ∈ cells, c.1.InGrid) {p : Position}
    (hunreached : ∀ w ∈ l.planned (.edit source sheet cells), ¬ w.Reaches other p) :
    (l.perform (.edit source sheet cells)).document.cell other p = l.document.cell other p := by
  by_cases hne : cells = []
  · subst hne
    obtain ⟨hkept, -, -⟩ := Document.perform_quiet (d := l.document) (a := .edit source sheet [])
      fun _ _ _ => hquiet
    rw [perform_eq, Document.cell, hkept]
    rfl
  obtain ⟨hsheets, hplanned⟩ := planned_edit hforwards hquiet hsource hne hcells
  rw [Document.cell, hsheets, Keyed.get?_set, Document.cell]
  split
  · next hother =>
    subst hother
    -- the position is none of those that were edited
    have hnone : cells.findRev? (·.1 = p) = none := by
      refine Keyed.findRev?_eq_none fun c hc => decide_eq_false ?_
      rintro rfl
      obtain ⟨w, hw, hreaches⟩ := Plan.exists_reaches l.maxWriteArea other
        (List.mem_map.mpr ⟨c, hc, rfl⟩)
      rw [← hplanned] at hw
      exact hunreached w hw hreaches
    rw [Option.map_some, Option.getD_some, Sheet.read_putAll, hnone]
    cases l.document.sheets.get? other with
    | none => rfl
    | some s => rfl
  · rfl

/-- An edit, of a sheet that the workbook has or of one that does not count. -/
theorem edit (h : l.InStepOn ids b) {id : Nat} (hforwards : l.document.forwards = [id])
    (hquiet : ∀ e ∈ l.document.listeners, e.2.IsQuiet) {source : ChangeSource}
    (hsource : source ≠ .load) {sheet : String} (hsheet : ids sheet → (b.sheets.get? sheet).isSome)
    {cells : List (Position × CellState)}
    (hsound : Plan.IsSound rangeLimit l.maxWriteArea (cells.map Prod.fst))
    (hcells : ∀ c ∈ cells, c.1.InGrid) : (l.perform (.edit source sheet cells)).InStepOn ids b := by
  by_cases hne : cells = []
  · subst hne
    exact h.perform_silent rfl rfl
  obtain ⟨hsheets, hplanned⟩ := planned_edit hforwards hquiet hsource hne hcells
  have hfits : ∀ w ∈ l.planned (.edit source sheet cells), w.Fits rangeLimit ∧ w.sheet = sheet := by
    rw [hplanned]
    refine fun w hw => ⟨Plan.IsSound.fits ?_ hw, Plan.sheet_of_mem_sheetWrites hw⟩
    simpa [Function.comp_def] using hsound
  refine ⟨?_, ?_, fun other hid p => ?_⟩
  · rw [store_perform]
    exact h.holds
  · intro w hw
    rw [pending_perform] at hw
    rcases List.mem_append.mp hw with hw | hw
    · exact h.fits w hw
    · exact (hfits w hw).1
  · have hshows := h.shows other hid p
    rw [Document.cell] at hshows
    rw [pending_perform, List.foldl_append, Workbook.cell_eq,
      Workbook.get?_sheets_foldl_after hfits, Document.cell, hsheets, Keyed.get?_set]
    by_cases hother : other = sheet
    · subst hother
      -- what waits leaves the sheet where it is
      have hsome := (b.sameFrame_foldl_after l.pending).isSome_get?_eq other
      rw [hsheet hid] at hsome
      obtain ⟨s, hs⟩ := Option.isSome_iff_exists.mp hsome
      rw [Workbook.cell_eq, hs] at hshows
      simp only [hs, Option.map_some, Option.getD_some, if_true, hplanned]
      refine Plan.ofState_read_edit other hsound ?_
      -- a sheet that the document does not have yet counts as empty
      cases hd : l.document.sheets.get? other with
      | none =>
        rw [hd] at hshows
        exact hshows
      | some t =>
        rw [hd] at hshows
        exact hshows
    · simp only [hother, if_false, Option.map_id']
      rw [← Workbook.cell_eq]
      exact hshows

/-- A write that is carried out changes the workbook as it would later. -/
theorem carry (h : l.InStepOn ids b) (hplain : l.queue.IsPlain) :
    ∃ b', l.carry.InStepOn ids b' ∧ Workbook.SameFrame b b' := by
  have hpending := pending_carry hplain
  have hstore := store_carry l
  cases hwaiting : l.pending with
  | nil =>
    rw [hwaiting] at hpending hstore
    exact ⟨b, h.congr hstore (hpending.trans hwaiting.symm) rfl, .refl b⟩
  | cons w ws =>
    rw [hwaiting] at hpending hstore
    have hfits := h.fits
    have hshows := h.shows
    rw [hwaiting] at hfits hshows
    refine ⟨b.after w, ⟨?_, ?_, ?_⟩, b.sameFrame_after w⟩
    · rw [hstore]
      exact h.holds.after w
    · rw [hpending]
      exact fun v hv => hfits v (List.mem_cons_of_mem w hv)
    · rw [hpending]
      exact hshows

/-- Where the workbook is saved does not matter. -/
theorem withPath (h : l.InStepOn ids b) (path : String) :
    ({ l with store := { l.store with
      workbook := l.store.workbook.map ({ · with path := some path }) } } : Link).InStepOn ids
        { b with path := some path } where
  holds := ⟨h.holds.kind, h.holds.watch, by rw [h.holds.workbook]; rfl⟩
  fits := h.fits
  shows id hid p := by
    show CellEdit.ofState ((l.pending.foldl Workbook.after { b with path := some path }).cell id p) = _
    rw [Workbook.foldl_after_withPath]
    exact h.shows id hid p

end InStepOn

namespace InStep

/-- When nothing waits, the workbook shows what the document does. -/
theorem agrees (h : l.InStep b) (hwaiting : l.queue.waiting = []) : l.Agrees := by
  refine ⟨b, h.holds.workbook, fun id p => ?_⟩
  have hshows := h.shows id trivial p
  rw [pending, Queue.actions_eq_nil.mpr hwaiting] at hshows
  exact hshows

/-- When all that waits is carried out, the workbook shows what the document does. -/
theorem agrees_drain (h : l.InStep b) (hplain : l.queue.IsPlain) : l.drain.Agrees := by
  obtain ⟨n, hn⟩ := l.exists_drain_eq
  -- one write after the other, with `InStep` as the invariant
  suffices H : ∀ n, (Link.carry^[n] l).queue.IsPlain ∧ ∃ b', (Link.carry^[n] l).InStep b' by
    obtain ⟨-, b', hb'⟩ := H n
    rw [← hn] at hb'
    exact hb'.agrees (drain_waiting hplain)
  intro n
  induction n with
  | zero => exact ⟨hplain, b, h⟩
  | succ n ih =>
    obtain ⟨hplain, b', hb'⟩ := ih
    rw [Function.iterate_succ_apply']
    obtain ⟨b'', hb'', -⟩ := hb'.carry hplain
    exact ⟨hplain.runOne _ _, b'', hb''⟩

end InStep

end Link

end SheetSync
