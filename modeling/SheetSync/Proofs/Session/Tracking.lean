import SheetSync.Proofs.Session.Consistency
import SheetSync.Proofs.Session.RollBack
import SheetSync.Proofs.Store.Reopen
/-!
Stores that keep track of a document. On the sheets that the active workbook lists and the store's
workbook has, the store's workbook shows what the document does, once it took the writes that wait:
`Tracks`. This needs no limit on chunks, so a change of workbook may fail after the store turned,
and then the document is written over what the workbook is had from again. Main statement:
`Tracking.run`.
-/
namespace SheetSync

theorem Target.Gives.nodup_keys {target : Target} {files : FileTree} {b : Workbook}
    (h : target.Gives files b) : (Keyed.keys b.sheets).Nodup := by
  cases target with
  | file path =>
    obtain ⟨content, time, file, -, -, rfl⟩ := h
    exact Keyed.nodup_keys_ofList _
  | blank =>
    obtain rfl := h
    exact Workbook.isProper_blank.ids

/-- A document that loads the copy of a workbook has its sheets. -/
theorem Workbook.isSome_get?_loadSheets {b : Workbook} {rows cols : Nat} {info : SheetInfo}
    (hinfo : info ∈ b.descriptor.sheets) :
    (Keyed.get? info.id (Document.loadSheets (b.copy rows cols))).isSome := by
  rw [← Option.ne_none_iff_isSome, ne_eq, Document.loadSheets, Keyed.get?_ofList_eq_none_iff,
    not_not, copy, List.map_map, List.map_map]
  exact List.mem_map.mpr ⟨info, hinfo, rfl⟩

namespace Session

variable {s t m : Session} {L K M : Ledger} {w : ActiveWorkbook} {b : Workbook}

/-- What goes on around a session when nobody but the session touches its workbook in the store, and
no listener answers a change. Edits are made on any sheet, but while a workbook is active only when
changes are handed on, which between requests they always are; edits that are written as one table
name no position twice and are within the limit of the store. -/
def Attentive (s : Session) : Event → Prop
  | .act (.edit source _ cells) =>
    source ≠ .load ∧ (∀ c ∈ cells, c.1.IsInner) ∧
      Plan.IsSound rangeLimit s.maxWriteArea (cells.map Prod.fst) ∧
      (s.active.isSome → s.sync.isSome)
  | .act (.load _) => False
  | .watch _ _ answer => answer = none
  | .store workbook _ _ => workbook = s.store.workbook
  | _ => True

theorem isQuiet_of_attentive {e : Event} (he : Attentive s e) : Event.IsQuiet e := by
  cases e with
  | watch => exact he
  | _ => trivial

/-- Whether a workbook has a sheet that the active one lists. -/
def Shared (w : ActiveWorkbook) (b : Workbook) (id : String) : Prop :=
  (∃ info ∈ w.descriptor.sheets, info.id = id) ∧ (b.sheets.get? id).isSome

/-- The store's workbook is in step with the document on the sheets that the active one lists, all
of which the document has. Within the limit on chunks these are all of its sheets. -/
structure Tracks (s : Session) (w : ActiveWorkbook) (b : Workbook) : Prop where
  inStep : s.toLink.InStepOn (Shared w b) b
  listed : ∀ info ∈ w.descriptor.sheets, (s.document.sheets.get? info.id).isSome
  ids : (Keyed.keys b.sheets).Nodup
  whole : max s.config.chunkRows 1 * max s.config.chunkCols 1 ≤ rangeLimit →
    w.descriptor.sheets = b.descriptor.sheets

namespace Tracks

theorem congr (h : s.Tracks w b) (hstore : t.store = s.store)
    (hpending : t.toLink.pending = s.toLink.pending)
    (hsheets : t.document.sheets = s.document.sheets) (hconfig : t.config = s.config) :
    t.Tracks w b where
  inStep := h.inStep.congr hstore hpending hsheets
  listed := by
    rw [hsheets]
    exact h.listed
  ids := h.ids
  whole := by
    rw [hconfig]
    exact h.whole

/-- Only the sheets that a workbook lists matter. -/
theorem rename (h : s.Tracks w b) {v : ActiveWorkbook}
    (hsheets : v.descriptor.sheets = w.descriptor.sheets) : s.Tracks v b := by
  have hshared : Shared v b = Shared w b := by
    funext id
    rw [Shared, hsheets, Shared]
  refine ⟨?_, ?_, h.ids, ?_⟩
  · rw [hshared]
    exact h.inStep
  · rw [hsheets]
    exact h.listed
  · rw [hsheets]
    exact h.whole

theorem of_sameFrame {b' : Workbook} (h : s.Tracks w b) (hframe : Workbook.SameFrame b b')
    (hstep : t.toLink.InStepOn (Shared w b) b')
    (hsheets : t.document.sheets = s.document.sheets) (hconfig : t.config = s.config) :
    t.Tracks w b' := by
  have hshared : Shared w b' = Shared w b := by
    funext id
    rw [Shared, hframe.isSome_get?_eq, Shared]
  refine ⟨?_, ?_, ?_, ?_⟩
  · rw [hshared]
    exact hstep
  · rw [hsheets]
    exact h.listed
  · rw [hframe.keys]
    exact h.ids
  · rw [hconfig, hframe.descriptor]
    exact h.whole

/-- An edit of any sheet. -/
theorem edit (h : s.Tracks w b) (hs : s.Wired) (hcalm : s.Calm) (hsync : s.sync.isSome)
    {source : ChangeSource} (hsource : source ≠ .load) (sheet : String)
    {cells : List (Position × CellState)} (hinner : ∀ c ∈ cells, c.1.IsInner)
    (hsound : Plan.IsSound rangeLimit s.maxWriteArea (cells.map Prod.fst)) :
    ((Event.act (.edit source sheet cells)).apply s).Tracks w b := by
  obtain ⟨id, hsync⟩ := Option.isSome_iff_exists.mp hsync
  have hforwards : s.document.forwards = [id] := by
    rw [hs.forwards, hsync]
    rfl
  have hgrid : ∀ c ∈ cells, c.1.InGrid := fun c hc => (hinner c hc).inGrid
  -- what is written to a sheet that the workbook lacks is refused, and does not count
  refine ⟨h.inStep.edit hforwards hcalm.quiet hsource And.right hsound hgrid, ?_, h.ids, h.whole⟩
  intro info hinfo
  have hlisted := h.listed info hinfo
  by_cases hne : cells = []
  · subst hne
    exact hlisted
  · show ((s.toLink.perform (.edit source sheet cells)).document.sheets.get? info.id).isSome
    rw [(Link.InStepOn.planned_edit hforwards hcalm.quiet hsource hne hgrid).1, Keyed.get?_set]
    split
    · rfl
    · exact hlisted

theorem apply (h : s.Tracks w b) (hs : s.Wired) (hcalm : s.Calm) (hactive : s.active.isSome)
    {e : Event} (he : Attentive s e) : ∃ b', (e.apply s).Tracks w b' := by
  cases e with
  | act a =>
    cases a with
    | edit source sheet cells =>
      obtain ⟨hsource, hinner, hsound, hsync⟩ := he
      exact ⟨b, h.edit hs hcalm (hsync hactive) hsource sheet hinner hsound⟩
    | load => exact he.elim
    | markSaved =>
      exact ⟨b, h.inStep.perform_silent (a := .markSaved) rfl rfl, h.listed, h.ids, h.whole⟩
  | carry =>
    obtain ⟨b', hb', hframe⟩ := h.inStep.carry hs.plain
    exact ⟨b', h.of_sameFrame hframe hb' rfl rfl⟩
  | unwatch label =>
    exact ⟨b, h.congr rfl rfl (sameContent_apply (e := .unwatch label) trivial s).sheets rfl⟩
  | store workbook files switches =>
    have hwatch := (hcalm.apply (e := .store workbook files switches) trivial).watch
    exact ⟨b, ⟨⟨h.inStep.holds.kind, hwatch, he.trans h.inStep.holds.workbook⟩, h.inStep.fits,
      h.inStep.shows⟩, h.listed, h.ids, h.whole⟩
  | _ => exact ⟨b, h.congr rfl rfl rfl rfl⟩

end Tracks

/-- The store of a session with an active workbook keeps track of the document. -/
structure Tracking (s : Session) : Prop extends Calm s where
  tracked : ∀ w, s.active = some w → ∃ b, s.Tracks w b

namespace Tracking

theorem congr (h : s.Tracking) (hlink : t.toLink = s.toLink) (hconfig : t.config = s.config)
    (hactive : t.active = s.active) : t.Tracking where
  toCalm := h.toCalm.congr hlink
  tracked w hw := by
    obtain ⟨b, hb⟩ := h.tracked w (hactive.symm.trans hw)
    exact ⟨b, hb.congr (by rw [hlink]) (by rw [hlink]) (by rw [hlink]) hconfig⟩

theorem apply (h : s.Tracking) (hs : s.Wired) {e : Event} (he : Attentive s e) :
    (e.apply s).Tracking where
  toCalm := h.toCalm.apply (isQuiet_of_attentive he)
  tracked w hw := by
    have hactive : s.active = some w := (congrArg Course.active (course_apply s e)).symm.trans hw
    obtain ⟨b, hb⟩ := h.tracked w hactive
    exact hb.apply hs h.toCalm (by rw [hactive]; rfl) he

theorem released (h : s.Calm) : s.released.Tracking where
  toCalm := h.congr rfl
  tracked w hw := by cases hw

theorem rebound (h : s.Calm) (hb : s.Tracks w b) : (s.rebound w).Tracking where
  toCalm := (h.bound w).congr rfl
  tracked v hv := by
    obtain rfl := Option.some.inj hv
    exact ⟨b, hb.congr rfl rfl rfl rfl⟩

end Tracking

theorem survivesClosing_tracking :
    SurvivesClosing Attentive fun s _ => s.Wired ∧ s.Tracking where
  event _ _ e he hs := ⟨hs.1.apply e, hs.2.apply hs.1 he⟩
  phase _ hs := ⟨hs.1.congr rfl rfl rfl, hs.2.congr rfl rfl rfl⟩
  hook _ _ hs := ⟨hs.1.congr rfl rfl rfl, hs.2.congr rfl rfl rfl⟩

/-! ## Changing the workbook -/

/-- What stays known of a calm session on its way from a state `m`: with a workbook active, nobody
edits the document. -/
structure Unedited (m s : Session) : Prop extends Calm s where
  sheets : m.active.isSome → s.document.sheets = m.document.sheets

theorem Unedited.congr (h : Unedited m s) (hlink : t.toLink = s.toLink) : Unedited m t where
  toCalm := h.toCalm.congr hlink
  sheets := by
    rw [hlink]
    exact h.sheets

theorem Unedited.withStore (h : Unedited m s) (workbook : Option Workbook) (files : FileTree) :
    Unedited m { s with store := { s.store with workbook, files } } :=
  ⟨h.toCalm.withStore workbook files, h.sheets⟩

theorem Unedited.apply (h : Unedited m s) (hs : Apart m s) {e : Event} (he : Attentive s e) :
    Unedited m (e.apply s) where
  toCalm := h.toCalm.apply (isQuiet_of_attentive he)
  sheets hactive := by
    refine Eq.trans ?_ (h.sheets hactive)
    cases e with
    | act a =>
      cases a with
      | edit source sheet cells =>
        -- changes are not handed on here, so while a workbook is active there is none
        obtain ⟨-, -, -, hsync⟩ := he
        rw [hs.active, hs.sync] at hsync
        cases hsync hactive
      | load => exact he.elim
      | markSaved => rfl
    | refresh => rfl
    | unwatch label => exact (sameContent_apply (e := .unwatch label) trivial s).sheets
    | _ => rfl

theorem survivesSwap_unedited (m : Session) (P : Option Workbook → Prop) :
    SurvivesSwap Attentive (fun _ => True) fun s _ =>
      Apart m s ∧ Unedited m s ∧ P s.store.workbook := by
  refine .and_apart m ?_ ?_ ?_ ?_ ?_ ?_
  · rintro s L e he hapart ⟨hs, hbook⟩
    refine ⟨hs.apply hapart he, ?_⟩
    rcases Event.store_apply hapart.waiting e with hsame | ⟨workbook, files, switches, rfl⟩
    · rw [hsame]
      exact hbook
    · obtain rfl : workbook = s.store.workbook := he
      exact hbook
  · rintro s L call _ hs
    rw [hs.1.logged]
    exact hs
  · rintro s L hs
    rw [hs.1.spent]
    exact hs
  · exact fun hs => ⟨hs.1.congr rfl, hs.2⟩
  · exact fun _ hs => ⟨hs.1.congr rfl, hs.2⟩
  · exact fun hs => ⟨hs.1.congr rfl, hs.2⟩

theorem overwriting_unedited (m : Session) : Overwriting (Rely Attentive)
    fun b s _ => Apart m s ∧ Unedited m s ∧ s.store.workbook = some b where
  kind hs := hs.2.1.kind
  workbook hs := hs.2.2
  lasting b := (survivesSwap_unedited m (· = some b)).lasting
  book b hs := ⟨hs.1.withStore _, hs.2.1.withStore (some b) _, rfl⟩

/-- A store that turned has a workbook with different sheets. -/
def Turnt (d : Descriptor) (book : Option Workbook) : Prop :=
  ∃ b, book = some b ∧ d = b.descriptor ∧ (Keyed.keys b.sheets).Nodup

/-- A workbook that is put back is calm, and has the document's sheets over it if nothing failed. -/
theorem achieves_restoreStore_tracked (hactive : m.active = some w) (hapart : Apart m s)
    (hs : Unedited m s) :
    Achieves (Rely Attentive) (restoreStore w) s L fun r t _ => Unedited m t ∧
      (r = .ok () → Apart m t ∧ ∃ base b, (Keyed.keys base.sheets).Nodup ∧
        Workbook.Restored base m.document.sheets b ∧ t.store.workbook = some b) := by
  have hI := survivesSwap_unedited m fun _ => True
  have hstart : Apart m { s with store := s.store.logged w.source.call } ∧
      Unedited m { s with store := s.store.logged w.source.call } ∧ True :=
    hI.log (L := L) trivial ⟨hapart, hs, trivial⟩
  have hcalm := achieves_restoreStore (L := L) hI
    (fun b hs => ⟨hs.1.withStore _, hs.2.1.withStore (some b) _, trivial⟩) (fun _ => trivial)
    (fun _ _ => trivial) hstart
  have hdocument : ∀ b s (_ : Ledger), Apart m s ∧ Unedited m s ∧ s.store.workbook = some b →
      s.document.WellFormed ∧ s.document.sheets = m.document.sheets :=
    fun b s K hs => ⟨hs.1.wired.document, hs.2.1.sheets (by rw [hactive]; rfl)⟩
  refine (hcalm.and (achieves_restoreStore_over (P := fun base => (Keyed.keys base.sheets).Nodup)
    hI.lasting (overwriting_unedited m) ?_ hdocument hstart)).imp ?_
  · rintro d s _ K ⟨hapart, hs, -⟩ (⟨base, rfl, rfl, hgives⟩ | ⟨rfl, hkind, -⟩)
    · exact ⟨base, rfl, hgives.nodup_keys, hapart.withStore _, hs.withStore (some base) _, rfl⟩
    · exact absurd hs.kind hkind
  · rintro (e | _) t K ⟨⟨-, ht, -⟩, hback⟩
    · exact ⟨ht, by rintro ⟨⟩⟩
    · obtain ⟨base, b, hids, hb, hapart, -, hbook⟩ := hback
      exact ⟨ht, fun _ => ⟨hapart, base, b, hids, hb, hbook⟩⟩

/-- A workbook over which the document was written is in step with it on the sheets that it has. -/
theorem Tracks.restored {b₀ : Workbook} (h : m.Tracks w b₀) (hapart : Apart m t)
    (ht : Unedited m t) (hactive : m.active = some w) {base : Workbook}
    (hids : (Keyed.keys base.sheets).Nodup) (hb : Workbook.Restored base m.document.sheets b)
    (hbook : t.store.workbook = some b)
    (hchunk : ¬ max m.config.chunkRows 1 * max m.config.chunkCols 1 ≤ rangeLimit) :
    t.Tracks w b := by
  have hsheets := ht.sheets (by rw [hactive]; rfl)
  have hpending : t.toLink.pending = [] := Queue.actions_eq_nil.mpr hapart.waiting
  refine ⟨⟨⟨ht.kind, ht.watch, hbook⟩, ?_, ?_⟩, ?_, ?_, ?_⟩
  · rw [hpending]
    exact fun x hx => by cases hx
  · rintro id ⟨⟨info, hinfo, rfl⟩, hhas⟩ p
    obtain ⟨sheet, hsheet⟩ := Option.isSome_iff_exists.mp (h.listed info hinfo)
    rw [hb.isSome_get?_eq] at hhas
    rw [hpending, Document.cell, hsheets, hsheet]
    exact hb.both info.id sheet hhas hsheet p
  · rw [hsheets]
    exact h.listed
  · rw [hb.keys]
    exact hids
  · rw [show t.config = m.config from congrArg Course.config hapart.course]
    exact fun hle => absurd hle hchunk

/-- A workbook that the store still has is in step with the document as before. -/
theorem Tracks.unturned (h : m.Tracks w b) (hidle : m.isIdle) (hapart : Apart m t)
    (ht : Unedited m t) (hactive : m.active = some w)
    (hbook : t.store.workbook = m.store.workbook) : t.Tracks w b := by
  have hsheets := ht.sheets (by rw [hactive]; rfl)
  have hpending : t.toLink.pending = m.toLink.pending :=
    (Queue.actions_eq_nil.mpr hapart.waiting).trans
      (Queue.actions_eq_nil.mpr (Queue.isIdle_iff.mp hidle)).symm
  refine ⟨⟨⟨ht.kind, ht.watch, hbook.trans h.inStep.holds.workbook⟩, ?_, fun id hid p => ?_⟩, ?_,
    h.ids, ?_⟩
  · rw [hpending]
    exact h.inStep.fits
  · rw [hpending, Document.cell, hsheets]
    exact h.inStep.shows id hid p
  · rw [hsheets]
    exact h.listed
  · rw [show t.config = m.config from congrArg Course.config hapart.course]
    exact h.whole

/-- A store that did not turn: what it had is bound again. -/
theorem Tracking.achieves_recover_unturned (h : m.Tracking) (hidle : m.isIdle) (hapart : Apart m s)
    (hs : Unedited m s) (hbook : s.store.workbook = m.store.workbook) (e : SyncError) :
    Achieves (Rely Attentive) (recover m.active false e) s L fun r t _ =>
      ∃ e', r = .ok e' ∧ t.Tracking := by
  cases hactive : m.active with
  | none => exact achieves_recover_none false ⟨_, rfl, .released (hs.toCalm.congr rfl)⟩
  | some w =>
    obtain ⟨b, hb⟩ := h.tracked w hactive
    have hback := hb.unturned hidle (hapart.withPhase (p := .rollingBack) rfl) (hs.congr rfl)
      hactive hbook
    exact Session.achieves_recover_unturned ⟨_, rfl, .rebound (hs.toCalm.congr rfl) hback⟩

/-- A store that turned to a workbook whose content could not be loaded, since chunks are beyond the
limit: the document is written over the old workbook. -/
theorem Tracking.achieves_recover_turned (h : m.Tracking) (hapart : Apart m s) (hs : Unedited m s)
    (hchunk : ¬ max m.config.chunkRows 1 * max m.config.chunkCols 1 ≤ rangeLimit) (e : SyncError) :
    Achieves (Rely Attentive) (recover m.active true e) s L fun r t _ =>
      ∃ e', r = .ok e' ∧ t.Tracking := by
  cases hactive : m.active with
  | none => exact achieves_recover_none true ⟨_, rfl, .released (hs.toCalm.congr rfl)⟩
  | some w =>
    obtain ⟨b₀, hb₀⟩ := h.tracked w hactive
    refine Session.achieves_recover_turned (Achieves.imp (achieves_restoreStore_tracked hactive
      (hapart.withPhase (p := .rollingBack) rfl) (hs.congr rfl)) ?_)
    rintro (e' | _) t K ⟨ht, hback⟩
    · exact ⟨_, rfl, .released ht.toCalm⟩
    · obtain ⟨hapart, base, b, hids, hb, hbook⟩ := hback rfl
      exact ⟨_, rfl, .rebound ht.toCalm (hb₀.restored hapart ht hactive hids hb hbook hchunk)⟩

/-- All content is loaded from a store that turned, or chunks may be beyond the limit. -/
def LoadedFrom (config : Config) (d : Descriptor) (r : Except SyncError Snapshot) (s : Session) :
    Prop :=
  ∃ b rows cols, s.store.Holds b ∧ d = b.descriptor ∧ (r = .ok (b.copy rows cols) ∨
    (¬ max config.chunkRows 1 * max config.chunkCols 1 ≤ rangeLimit ∧ ∃ e, r = .error e))

theorem achieves_loadContent_unedited {d : Descriptor}
    (h : Apart m s ∧ Unedited m s ∧ Turnt d s.store.workbook) (hloading : s.phase = .loading) :
    Achieves (Rely Attentive) (loadContent d) s L fun r t _ =>
      ((Apart m t ∧ Unedited m t ∧ Turnt d t.store.workbook) ∧ t.phase = .loading) ∧
        LoadedFrom m.config d r t := by
  obtain ⟨hapart, hs, b, hbook, rfl, hids⟩ := h
  have hholds : s.store.Holds b := ⟨hs.kind, hs.watch, hbook⟩
  have hconfig : s.config = m.config := congrArg Course.config hapart.course
  refine achieves_bind.mpr (achieves_get.mpr (achieves_command.mpr
    (commands_loadSnapshot hholds fun r hr => ?_)))
  refine ⟨⟨⟨hapart, hs, b, hbook, rfl, hids⟩, hloading⟩, b, s.config.chunkRows, s.config.chunkCols,
    hholds, rfl, ?_⟩
  rw [hconfig] at hr ⊢
  rcases hr with rfl | ⟨hnot, e, rfl⟩
  · exact .inl rfl
  · exact .inr ⟨hnot, _, rfl⟩

/-- However a change of workbook ends, the store keeps track of the document. -/
theorem achieves_swap_tracking {target : Target} (hm : m.Wired) (hidle : m.isIdle)
    (hphase : m.phase = .draining ∨ m.phase = .beforeClose) (h : m.Tracking) :
    Achieves (Rely Attentive) (swap target m.active) m M fun _ t _ => t.Tracking := by
  have hstart : Unedited m (Session.detached { m with phase := .closing }) :=
    ⟨(h.toCalm.congr (t := { m with phase := .closing }) rfl).detached,
      fun _ => (sameContent_detached ({ m with phase := .closing } : Session)).sheets⟩
  refine achieves_swap hphase
    (fun s _ => Apart m s ∧ Unedited m s ∧ s.store.workbook = m.store.workbook)
    (fun d s _ => Apart m s ∧ Unedited m s ∧ Turnt d s.store.workbook) (LoadedFrom m.config)
    (survivesSwap_unedited m (· = m.store.workbook)) ⟨.start hm hidle _, ?_, ?_⟩ ?_ ?_
    (fun d => survivesSwap_unedited m (Turnt d)) (fun _ => trivial) ?_ ?_ ?_
  · rw [h.logged, ← store_detached]
    exact hstart
  · rw [h.logged]
  · rintro fault s L - ⟨hapart, hs, hbook⟩
    exact h.achieves_recover_unturned hidle hapart hs hbook _
  · rintro d s _ L ⟨hapart, hs, -⟩ (⟨b, rfl, rfl, hgives⟩ | ⟨rfl, hkind, -⟩)
    · exact ⟨hapart.withStore _, hs.withStore (some b) _, b, rfl, rfl, hgives.nodup_keys⟩
    · exact absurd hs.kind hkind
  · exact fun d s L hs hloading => achieves_loadContent_unedited hs hloading
  · rintro d e s L ⟨hapart, hs, -⟩ ⟨-, -, -, -, -, ⟨⟨⟩⟩ | ⟨hchunk, -⟩⟩
    exact h.achieves_recover_turned hapart hs hchunk e
  · rintro d s L content t ⟨hapart, hs, b', hbook', rfl, hids⟩
      ⟨b, rows, cols, hholds, hd, ⟨⟨⟩⟩ | ⟨-, e, ⟨⟩⟩⟩ ⟨signature, -, ht⟩
    obtain rfl := Option.some.inj (hbook'.symm.trans hholds.workbook)
    obtain ⟨hcalm, hstep, hsheets, id, hactive⟩ :=
      ht.inStep hapart.wired hapart.sync hs.toCalm hholds
    refine ⟨hcalm, fun w hw => ⟨b', ?_⟩⟩
    obtain rfl := Option.some.inj (hactive.symm.trans hw)
    refine ⟨⟨hstep.holds, hstep.fits, fun id _ => hstep.shows id trivial⟩, fun info hinfo => ?_,
      hids, fun _ => rfl⟩
    rw [hsheets]
    exact Workbook.isSome_get?_loadSheets hinfo

/-! ## Saving -/

theorem Tracks.withFiles (h : s.Tracks w b) (files : FileTree) :
    ({ s with store := { s.store with files } } : Session).Tracks w b :=
  ⟨⟨⟨h.inStep.holds.kind, h.inStep.holds.watch, h.inStep.holds.workbook⟩, h.inStep.fits,
    h.inStep.shows⟩, h.listed, h.ids, h.whole⟩

theorem Tracks.withPath (h : s.Tracks w b) (path : String) :
    ({ s with store := { s.store with
      workbook := s.store.workbook.map ({ · with path := some path }) } } : Session).Tracks w
        { b with path := some path } :=
  ⟨h.inStep.withPath path, h.listed, h.ids, h.whole⟩

namespace Tracking

theorem withFiles (h : s.Tracking) (files : FileTree) :
    ({ s with store := { s.store with files } } : Session).Tracking where
  toCalm := h.toCalm.withStore _ files
  tracked w hw := by
    obtain ⟨b, hb⟩ := h.tracked w hw
    exact ⟨b, hb.withFiles files⟩

theorem withPath (h : s.Tracking) (path : String) : ({ s with store := { s.store with
    workbook := s.store.workbook.map ({ · with path := some path }) } } : Session).Tracking where
  toCalm := h.toCalm.withStore _ s.store.files
  tracked w hw := by
    obtain ⟨b, hb⟩ := h.tracked w hw
    exact ⟨_, hb.withPath path⟩

end Tracking

theorem survivesSaving_tracking :
    SurvivesSaving Attentive fun s _ => s.Wired ∧ s.Tracking where
  event := survivesClosing_tracking.event
  phase _ hs := ⟨hs.1.congr rfl rfl rfl, hs.2.congr rfl rfl rfl⟩
  busy _ hs := ⟨hs.1.congr rfl rfl rfl, hs.2.congr rfl rfl rfl⟩
  prompts _ hs := ⟨hs.1.congr rfl rfl rfl, hs.2.congr rfl rfl rfl⟩
  services _ hs := ⟨hs.1.congr rfl rfl rfl, hs.2.congr rfl rfl rfl⟩
  log path hs := by
    rw [hs.2.logged]
    exact hs
  spend hs := by
    rw [hs.2.spent]
    exact hs
  files files hs := ⟨hs.1.congr rfl rfl rfl, hs.2.withFiles files⟩
  path path hs := ⟨hs.1.congr rfl rfl rfl, hs.2.withPath path⟩
  saved hs := ⟨hs.1.apply_act .markSaved, hs.2.apply hs.1 (e := .act .markSaved) trivial⟩
  rename {s _ w} path refresh hookFor hactive hs := by
    refine ⟨hs.1.congr rfl rfl rfl, hs.2.toCalm.congr rfl, ?_⟩
    intro v hv
    obtain rfl := Option.some.inj hv
    obtain ⟨b, hb⟩ := hs.2.tracked w hactive
    -- another path does not change what the workbook lists
    have hrenamed := hb.rename rfl
      (v := { w with descriptor := w.descriptor.withPath path, id := .ofPath path })
    exact ⟨b, hrenamed.congr rfl rfl rfl rfl⟩

/-! ## Runs -/

theorem IsNew.tracking (h : s.IsNew) (hkind : s.store.kind = .local)
    (hwatch : s.store.watch = none) : s.Tracking := by
  rw [h.eq]
  exact ⟨⟨fun e he => (by cases he), hkind, hwatch⟩, fun w hw => (by cases hw)⟩

/-- Along a run, the store keeps track of the document. -/
theorem Tracking.run {s₀ : Session} (hnew : s₀.AtRest) (h : s₀.Tracking)
    (hrun : Run Attentive s₀ s L) : s.Tracking := by
  refine Run.induct (I := fun s _ => s.Tracking) hnew h ?_ ?_ ?_ hrun
  · exact fun s L e hrest he hs => hs.apply hrest.wired he
  · intro s L r reply t K hr hrest hs hreq
    exact (achieves_saveRequest survivesSaving_tracking hr hrest ⟨hrest.wired, hs⟩ _ _ _ hreq).2.2
  · intro s L target reply t K hrest hs hreq
    rcases exists_turnsAt hrest.isBusy hrest.stable.phase_eq hreq with
      ⟨-, -, prompts, rfl⟩ | ⟨m, M, hturn⟩
    · exact hs.congr rfl rfl rfl
    · obtain ⟨hidle, hphase, hcourse, hwired, hm⟩ := hturn.closing survivesClosing_tracking
        fun prompts => ⟨hrest.wired.congr rfl rfl rfl, hs.congr rfl rfl rfl⟩
      have hswap : Achieves (Rely Attentive) (swap target m.active) m M _ :=
        achieves_swap_tracking hwired hidle hphase hm
      rw [show m.active = s.active from congrArg Course.active hcourse] at hswap
      obtain ⟨u, hu, rfl⟩ := hturn.ends hswap
      exact hu.congr rfl rfl rfl

end Session

end SheetSync
