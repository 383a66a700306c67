import SheetSync.Proofs.Session.Outcome
import SheetSync.Proofs.Session.Tracking
/-!
What a save leaves in the file. A save waits for all writes, takes the workbook, of which the store
keeps track, and writes its record; what others change in the document until the file is written is
among the writes that they call for. Main statement: `saved_file_shows`.
-/
namespace SheetSync

/-- The writes that changes called for since an earlier moment of a run. -/
def Ledger.since (M K : Ledger) : List Write := K.planned.drop M.planned.length

namespace Session

variable {may : Session → Event → Prop} {s t u m : Session} {L K M : Ledger} {w : ActiveWorkbook}
  {b : Workbook}

/-! ## What a file shows -/

/-- Whether a workbook shows what a document does on the sheets of a descriptor, as far as it has
them, but for the positions that some writes reach. -/
def ShowsListed (b : Workbook) (d : Descriptor) (document : Document) (apart : List Write) : Prop :=
  ∀ info ∈ d.sheets, (b.sheets.get? info.id).isSome →
    ∀ p, (∀ w ∈ apart, ¬ w.Reaches info.id p) →
      CellEdit.ofState (b.cell info.id p) = .ofState (document.cell info.id p)

theorem ShowsListed.congr {d : Descriptor} {document document' : Document} {apart : List Write}
    (h : ShowsListed b d document apart) (hsheets : document'.sheets = document.sheets) :
    ShowsListed b d document' apart := by
  intro info hinfo hhas p hp
  rw [Document.cell, hsheets]
  exact h info hinfo hhas p hp

/-- The record of a workbook with which nothing waits shows what the document does. -/
theorem Tracks.showsListed (h : s.Tracks w b) (hidle : s.isIdle) (path : String) :
    ShowsListed ((WorkbookFile.ofWorkbook b).toWorkbook path) w.descriptor s.document [] := by
  obtain ⟨hsheets, hcells⟩ := Workbook.toWorkbook_ofWorkbook_shows h.ids path
  intro info hinfo hhas p _
  have hb : (b.sheets.get? info.id).isSome := by
    rw [Workbook.isSome_get?_iff, hsheets] at hhas
    exact Workbook.isSome_get?_iff.mpr hhas
  have hshows := h.inStep.shows info.id ⟨⟨info, hinfo, rfl⟩, hb⟩ p
  rw [Link.pending, Queue.actions_eq_nil.mpr (Queue.isIdle_iff.mp hidle)] at hshows
  exact (hcells info.id p).trans hshows

/-- What is known of a session with a workbook after others did what they may since a state `m`:
the document has changed only where the writes reach that were called for. -/
structure ChangedWithin (m : Session) (M : Ledger) (s : Session) (L : Ledger) : Prop extends
    Calm s where
  wired : s.Wired
  course : s.course = m.course
  changed : ∃ late, L.planned = M.planned ++ late ∧
    ∀ id p, (∀ w ∈ late, ¬ w.Reaches id p) → s.document.cell id p = m.document.cell id p

namespace ChangedWithin

theorem start (hwired : m.Wired) (hcalm : m.Calm) : ChangedWithin m M m M :=
  ⟨hcalm, hwired, rfl, [], (List.append_nil _).symm, fun _ _ _ => rfl⟩

theorem apply (h : ChangedWithin m M s L) (hsync : m.sync.isSome) {e : Event}
    (he : Attentive s e) : ChangedWithin m M (e.apply s) (e.note s L) := by
  refine ⟨h.toCalm.apply (isQuiet_of_attentive he), h.wired.apply e,
    (course_apply s e).trans h.course, ?_⟩
  obtain ⟨late, hlate, hcells⟩ := h.changed
  cases e with
  | act a =>
    refine ⟨late ++ s.toLink.planned a, ?_, fun id p hp => ?_⟩
    · show L.planned ++ s.toLink.planned a = M.planned ++ (late ++ s.toLink.planned a)
      rw [hlate, List.append_assoc]
    refine Eq.trans ?_ (hcells id p fun w hw => hp w (List.mem_append_left _ hw))
    cases a with
    | edit source sheet cells =>
      obtain ⟨hsource, hinner, -⟩ := he
      obtain ⟨listener, hlistener⟩ := Option.isSome_iff_exists.mp hsync
      have hforwards : s.document.forwards = [listener] := by
        rw [h.wired.forwards, show s.sync = m.sync from congrArg Course.sync h.course, hlistener]
        rfl
      exact Link.InStepOn.cell_edit_of_unreached hforwards h.quiet hsource
        (fun c hc => (hinner c hc).inGrid) fun w hw => hp w (List.mem_append_right _ hw)
    | load => exact he.elim
    | markSaved => rfl
  | carry => exact ⟨late, (Event.planned_note_carry s L).trans hlate, hcells⟩
  | unwatch label =>
    refine ⟨late, hlate, fun id p hp => ?_⟩
    rw [Document.cell, (sameContent_apply (e := .unwatch label) trivial s).sheets]
    exact hcells id p hp
  | _ => exact ⟨late, hlate, hcells⟩

/-- A workbook that showed what the document did shows what it does now, where nobody changed
it. -/
theorem showsListed (h : ChangedWithin m M s L) {d : Descriptor}
    (hm : ShowsListed b d m.document []) : ShowsListed b d s.document (M.since L) := by
  obtain ⟨late, hlate, hcells⟩ := h.changed
  have hsince : M.since L = late := by rw [Ledger.since, hlate, List.drop_left]
  rw [hsince]
  intro info hinfo hhas p hp
  rw [hcells info.id p hp]
  exact hm info hinfo hhas p (by simp)

end ChangedWithin

/-! ## Saves -/

/-- The state `m` of a request to save to a path in which all writes are carried out and the store
is told to save, in a run of the request from `s` to `t` in which the store does so. -/
def WritesAt (may : Session → Event → Prop) (r : Request) (path : String) (s : Session)
    (L : Ledger) (t : Session) (K : Ledger) (m : Session) (M : Ledger) : Prop :=
  ∃ w prompts u, s.active = some w ∧
    SavesAt may path { s with isBusy := true, prompts, phase := .saving } L (.ok ()) u K m M ∧
    t = { u.told w r path (.ok ()) with phase := .active, isBusy := false }

/-- What a save leaves in the file at a path in a session `t`, if the store was told to save in a
state `m`: the text of a record. On the sheets of a descriptor that the record has, it shows what
the document holds now but for the cells that changes since `m` called to be written, so all of it
where nobody changed the document since; and it shows what the document held in `m`. Where chunks
are within the limit of the store, the record has just the sheets of the descriptor. -/
structure Recorded (path : String) (d : Descriptor) (file : WorkbookFile) (m : Session)
    (M : Ledger) (t : Session) (K : Ledger) : Prop where
  isSaved : t.document.isDirty = false
  read : ∃ time, t.store.files.read path = .ok (.text file.text, time)
  shows : ShowsListed (file.toWorkbook path) d t.document (M.since K)
  unchanged : t.document.sheets = m.document.sheets →
    ShowsListed (file.toWorkbook path) d t.document []
  showedThen : ShowsListed (file.toWorkbook path) d m.document []
  sheets : max t.config.chunkRows 1 * max t.config.chunkCols 1 ≤ rangeLimit →
    (file.toWorkbook path).descriptor.sheets = d.sheets

theorem AtRest.exists_writesAt (hs : s.AtRest) {r : Request} {path : String}
    (hr : ∀ target, r ≠ .switch target)
    (h : Activity.Runs (Rely may) (Session.request r).run s L (.ok (.saved path)) t K) :
    ∃ m M, WritesAt may r path s L t K m M := by
  obtain hactive | ⟨w, hactive⟩ := Option.eq_none_or_eq_some s.active
  · obtain ⟨⟨⟩, -⟩ := (atOnce_noActiveWorkbook hs.isBusy hactive hr).eq_of_runs h
  rcases hs.saves_cases hactive hr h with
    hcancelled | ⟨path', prompts, result, u, m, M, hsaves, hreply, ht⟩
  · obtain ⟨⟨⟩, -⟩ := hcancelled.eq_of_runs h
  cases result with
  | error fault => cases hreply
  | ok =>
    obtain rfl := Reply.saved.inj (Except.ok.inj hreply)
    exact ⟨m, M, w, prompts, u, hactive, hsaves, ht⟩

/-- What a store that is not watched has saved is the workbook that it had when it was told to, and
nothing but what others did is different otherwise. -/
theorem SavesAt.exists_written {path : String} (h : SavesAt may path s L (.ok ()) u K m M)
    (hb : m.store.Holds b) : ∃ v files, Meanwhile may m M v K ∧
      (FileTree.replace path (.text (WorkbookFile.ofWorkbook b).text)).run v.store.files =
        (.ok (), files) ∧
      u = { v with store := { v.store with
        files, workbook := v.store.workbook.map ({ · with path := some path }) } } := by
  have hsaved : Commands (Rely may) (Store.saveWorkbook (some path)) m M fun result u K =>
      result = .ok () → ∃ v files, Meanwhile may m M v K ∧
        (FileTree.replace path (.text (WorkbookFile.ofWorkbook b).text)).run v.store.files =
          (.ok (), files) ∧
        u = { v with store := { v.store with
          files, workbook := v.store.workbook.map ({ · with path := some path }) } } := by
    refine (commands_saveWorkbook hb path).mpr fun v N hwait => ?_
    split
    · rintro ⟨⟩
    · next files hreplace => exact fun _ => ⟨v, files, hwait.1, hreplace, rfl⟩
  exact hsaved _ _ _ h.told rfl

/-- A save marks the document as saved and keeps the workbook active, by whatever name. -/
theorem told_ok (r : Request) (path : String) (hactive : u.active = some w) :
    ∃ v, v.descriptor.sheets = w.descriptor.sheets ∧ (u.told w r path (.ok ())).active = some v ∧
      (u.told w r path (.ok ())).toLink = u.toLink.perform .markSaved ∧
      (u.told w r path (.ok ())).config = u.config := by
  cases hinPlace : r.isInPlace w with
  | true =>
    rw [told_of_inPlace hinPlace]
    exact ⟨w, rfl, hactive, rfl, rfl⟩
  | false =>
    rw [told_of_not_inPlace hinPlace]
    exact ⟨{ w with descriptor := w.descriptor.withPath path, id := .ofPath path },
      rfl, rfl, rfl, rfl⟩

/-- What is written down is what the store had when it was told to save. -/
theorem WritesAt.exists_recorded (hmay : ∀ u e, may u e → Attentive u e) {r : Request}
    {path : String} (h : WritesAt may r path s L t K m M) (hrest : s.AtRest) (hs : s.Tracking) :
    ∃ v file, t.active = some v ∧ Recorded path v.descriptor file m M t K := by
  obtain ⟨w, prompts, u, hactive, hsaves, rfl⟩ := h
  -- while writes are carried out, the store keeps track and the workbook stays bound
  have hI : Survives may fun x _ =>
      (x.course = { s.course with isBusy := true, phase := .saving }) ∧ x.Wired ∧ x.Tracking :=
    fun x N e he hx => ⟨(course_apply x e).trans hx.1,
      survivesClosing_tracking.event x N e (hmay x e he) hx.2⟩
  obtain ⟨hcourse, hwired, hm⟩ := hsaves.keeps_settled hI
    ⟨rfl, hrest.wired.congr rfl rfl rfl, hs.congr rfl rfl rfl⟩
  have hactive' : m.active = some w := (congrArg Course.active hcourse).trans hactive
  have hsync : m.sync.isSome := by
    rw [show m.sync = s.sync from congrArg Course.sync hcourse,
      show s.sync.isSome = s.active.isSome from hrest.stable.sync, hactive]
    rfl
  obtain ⟨b, hb⟩ := hm.tracked w hactive'
  obtain ⟨v, files, hwait, hreplace, rfl⟩ := hsaves.exists_written hb.inStep.holds
  have hchanged : ChangedWithin m M v K := hwait.keeps
    (fun x N e he hx => hx.apply hsync (hmay x e he)) (.start hwired hm.toCalm)
  have hvactive : v.active = some w := (congrArg Course.active hchanged.course).trans hactive'
  obtain ⟨time, hread⟩ := FileTree.read_of_replace hreplace
  obtain ⟨x, hsheets, hx, hlink, hconfig⟩ := told_ok (u := { v with store := { v.store with
    files, workbook := v.store.workbook.map ({ · with path := some path }) } }) r path hvactive
  have hshows : ShowsListed ((WorkbookFile.ofWorkbook b).toWorkbook path) x.descriptor m.document
      [] := by
    rw [ShowsListed, hsheets]
    exact hb.showsListed hsaves.idle path
  refine ⟨x, .ofWorkbook b, hx, ?_, ⟨time, ?_⟩, ?_, fun hsame => ?_, hshows, fun hchunk => ?_⟩
  · rw [hlink]
    rfl
  · rw [hlink, Link.store_perform]
    exact hread
  · rw [hlink]
    exact hchanged.showsListed hshows
  · exact hshows.congr hsame
  · rw [hsheets]
    refine (Workbook.toWorkbook_ofWorkbook_shows hb.ids path).1.trans (hb.whole ?_).symm
    rw [show m.config = v.config from (congrArg Course.config hchanged.course).symm]
    rwa [hconfig] at hchunk

/-- Writes that were called for stay in an onlooker's notes. -/
theorem WritesAt.planned_le {r : Request} {path : String} (h : WritesAt may r path s L t K m M) :
    L.planned.length ≤ M.planned.length := by
  obtain ⟨_, _, _, -, hsaves, -⟩ := h
  have hI : Survives may fun _ N => L.planned.length ≤ N.planned.length := by
    intro x N e _ hN
    cases e with
    | act a =>
      refine hN.trans ?_
      rw [Event.note, List.length_append]
      exact Nat.le_add_right _ _
    | carry =>
      rw [Event.planned_note_carry]
      exact hN
    | _ => exact hN
  exact hsaves.keeps_settled hI le_rfl

/-- What a save leaves of a session in which nothing waited. -/
structure SavedFrom (s t : Session) : Prop where
  document : t.document = { s.document with isDirty := false }
  sheets : t.active.map (·.descriptor.sheets) = s.active.map (·.descriptor.sheets)
  config : t.config = s.config

/-- Where nothing waits and a file can be made at a path, an active workbook can be saved there. -/
theorem exists_runs_saveAs {path : String} {files : FileTree} (hbusy : s.isBusy = false)
    (hactive : s.active = some w) (hphase : s.phase = .active) (hticks : s.config.ticks = 0)
    (hidle : s.isIdle) (hb : s.store.Holds b)
    (hreplace : (FileTree.replace path (.text (WorkbookFile.ofWorkbook b).text)).run s.store.files =
      (.ok (), files)) :
    ∃ t, Activity.Runs (Rely may) (request (.saveAs (some path))).run s L (.ok (.saved path)) t L ∧
      t.store.files = files ∧ SavedFrom s t := by
  by_contra hnone
  have hnever : Achieves (Rely may) (request (.saveAs (some path))) s L fun reply t K =>
      ¬ (reply = .ok (.saved path) ∧ K = L ∧ t.store.files = files ∧ SavedFrom s t) := by
    rintro _ t _ hruns ⟨rfl, rfl, hsaved⟩
    exact hnone ⟨t, hruns, hsaved⟩
  -- no step waits but the last one, during which nothing happens
  have hunder := (atOnce_activeWorkbook (s := { s with isBusy := true }) hactive).achieves.mp
    (achieves_bind.mp ((achieves_exclusively hbusy).mp hnever))
  have hsaving := (achieves_advance (s := { s with isBusy := true }) (by rw [hphase]; decide)).mp
    (achieves_bind.mp (achieves_bind.mp ((achieves_pure _).mp (achieves_bind.mp hunder))))
  have hsettled := (achieves_settle_of_idle (s := { s with isBusy := true, phase := .saving })
    hticks hidle).mp (achieves_bind.mp (achieves_bind.mp (achieves_tryCatch.mp
      (achieves_bind.mp hsaving))))
  have hwritten := (commands_saveWorkbook (s := { s with isBusy := true, phase := .saving })
    hb path).mp (achieves_command.mp (achieves_bind.mp hsettled)) _ L ⟨.none, by rintro ⟨⟩⟩
  simp only [hreplace, Except.mapError] at hwritten
  have hmarked := (achieves_modify _).mp hwritten
  have hrename := (achieves_modify _).mp (achieves_bind.mp hmarked)
  have hpermits : Phase.saving.Permits .active := by decide
  have hback := (achieves_advance hpermits).mp ((achieves_modify _).mp hrename)
  have hend := (achieves_pure _).mp hback
  refine hend ⟨rfl, rfl, by simp, rfl, ?_, rfl⟩
  show some w.descriptor.sheets = s.active.map _
  rw [hactive]
  rfl

/-! ## Runs -/

/-- Where nothing waits and there are no files yet, an active workbook can be saved. -/
theorem exists_saved (hrun : Run Attentive (.on {}) s L) (hactive : s.active = some w)
    (hticks : s.config.ticks = 0) (hidle : s.isIdle) (hfiles : s.store.files = {}) :
    ∃ t b time, s.store.workbook = some b ∧
      Activity.Runs (Rely Attentive) (request (.saveAs (some "book"))).run s L
        (.ok (.saved "book")) t L ∧
      t.store.files.read "book" = .ok (.text (WorkbookFile.ofWorkbook b).text, time) ∧
      SavedFrom s t := by
  have hnew := (isNew_on {}).atRest
  have hrest := hrun.atRest hnew
  have hphase := hrest.phase_eq_active hactive
  obtain ⟨b, hb⟩ := (Tracking.run hnew ((isNew_on {}).tracking rfl rfl) hrun).tracked w hactive
  have hreplace := Store.run_replace_book (.text (WorkbookFile.ofWorkbook b).text)
  obtain ⟨t, hsaved, htree, hkept⟩ := exists_runs_saveAs hrest.isBusy hactive hphase hticks hidle
    hb.inStep.holds (by rw [hfiles]; exact hreplace)
  obtain ⟨time, hread⟩ := FileTree.read_of_replace hreplace
  exact ⟨t, b, time, hb.inStep.holds.workbook, hsaved, htree ▸ hread, hkept⟩

/-- A session after a change of one cell of a sheet, which was carried out as far as it can be. -/
def changed (s : Session) (sheet : String) : Session :=
  Event.carry.apply ((Event.act (.edit .user sheet [(⟨0, 0⟩, .ofValue (.bool true))])).apply s)

/-- A new workbook in which someone changes one cell of a sheet, and that is then saved. -/
theorem exists_saved_changed (sheet : String) (check : Session → Bool)
    (hends : ((request (.switch .blank)).run (.on {})).end?.any fun first =>
      let s := first.2.changed sheet
      (s.active.isSome && s.config.ticks == 0) && (s.isIdle && s.store.files == {}) && check s) :
    ∃ s L t b time, (Run Attentive (.on {}) s L ∧ check s) ∧ s.store.workbook = some b ∧
      Activity.Runs (Rely Attentive) (request (.saveAs (some "book"))).run s L
        (.ok (.saved "book")) t L ∧
      t.store.files.read "book" = .ok (.text (WorkbookFile.ofWorkbook b).text, time) ∧
      SavedFrom s t := by
  obtain ⟨⟨r, s⟩, hs, hends⟩ := (Option.any_eq_true _ _).mp hends
  simp only [Bool.and_eq_true, beq_iff_eq] at hends
  obtain ⟨⟨⟨hactive, hticks⟩, hidle, hfiles⟩, hcheck⟩ := hends
  have hstart : Run Attentive _ s _ := Run.of_end? hs
  have hrest := hstart.atRest (isNew_on {}).atRest
  have hattentive : Attentive s (.act (.edit .user sheet [(⟨0, 0⟩, .ofValue (.bool true))])) := by
    refine ⟨by decide, ?_, Plan.isSound_singleton _ _ _, fun hactive => ?_⟩
    · intro c hc
      obtain rfl := List.mem_singleton.mp hc
      exact ⟨by decide, by decide⟩
    · exact (show s.sync.isSome = s.active.isSome from hrest.stable.sync).trans hactive
  have hrun := (hstart.event (.act _) hattentive).event .carry trivial
  obtain ⟨w, hactive⟩ := Option.isSome_iff_exists.mp hactive
  obtain ⟨t, b, time, hsaved⟩ := exists_saved hrun hactive hticks hidle hfiles
  exact ⟨_, _, t, b, time, ⟨hrun, hcheck⟩, hsaved⟩

/-- A request to save that succeeds, in a run of a session over a local store, has told the store to
save in a state in which all writes were carried out. Whichever state of its run that was, the
document is saved, and the file has the text of a record. On every sheet of the active workbook that
the record has, it shows what the document holds, but for the cells that changes made since then,
while the file was written, called to be written: all of it, if nobody changed the document then.
Where chunks are within the limit of the store, the record has just the sheets of the active
workbook. -/
theorem saved_file_shows {s₀ : Session} {r : Request} {path : String}
    (hmay : ∀ u e, may u e → Attentive u e) (hnew : s₀.IsNew) (hkind : s₀.store.kind = .local)
    (hwatch : s₀.store.watch = none) (hrun : Run may s₀ s L) (hr : ∀ target, r ≠ .switch target)
    (h : Activity.Runs (Rely may) (request r).run s L (.ok (.saved path)) t K) :
    (∃ m M, WritesAt may r path s L t K m M) ∧
    ∀ m M, WritesAt may r path s L t K m M →
      ∃ w file, t.active = some w ∧ Recorded path w.descriptor file m M t K := by
  have hrest := hrun.atRest hnew.atRest
  refine ⟨hrest.exists_writesAt hr h, fun m M hwrites => ?_⟩
  exact hwrites.exists_recorded hmay hrest
    (.run hnew.atRest (hnew.tracking hkind hwatch) (hrun.mono hmay))

theorem saved_file_shows_change : ∃ s L t w file time, Run Attentive (.on {}) s L ∧
    Activity.Runs (Rely Attentive) (request (.saveAs (some "book"))).run s L
      (.ok (.saved "book")) t L ∧
    t.active = some w ∧ t.document.isDirty = false ∧
    t.document.cell defaultSheet ⟨0, 0⟩ = .ofValue (.bool true) ∧
    t.store.files.read "book" = .ok (.text (WorkbookFile.text file), time) ∧
    CellEdit.ofState ((file.toWorkbook "book").cell defaultSheet ⟨0, 0⟩) =
      .ofState (.ofValue (.bool true)) := by
  obtain ⟨s, L, t, -, -, ⟨hrun, hcheck⟩, -, hsaved, -, hfrom⟩ := exists_saved_changed defaultSheet
    (fun s => s.document.cell defaultSheet ⟨0, 0⟩ == .ofValue (.bool true) &&
      max s.config.chunkRows 1 * max s.config.chunkCols 1 ≤ rangeLimit &&
      s.active.any fun w => w.descriptor.sheets.any (·.id == defaultSheet))
    (by decide +kernel)
  simp only [Bool.and_eq_true, beq_iff_eq, decide_eq_true_eq, Option.any_eq_true,
    List.any_eq_true] at hcheck
  obtain ⟨⟨hcell, hchunk⟩, v, hv, info, hinfo, hid⟩ := hcheck
  obtain ⟨⟨m, M, hwrites⟩, hall⟩ := saved_file_shows (fun _ _ he => he) (isNew_on _) rfl rfl hrun
    (by rintro target ⟨⟩) hsaved
  obtain ⟨w, file, hw, hrecorded⟩ := hall m M hwrites
  obtain ⟨time, hread⟩ := hrecorded.read
  have hcell : t.document.cell defaultSheet ⟨0, 0⟩ = .ofValue (.bool true) := by
    rw [hfrom.document]
    exact hcell
  -- nobody changed the document while the file was written
  have hshows := hrecorded.shows
  rw [show M.since L = [] from List.drop_eq_nil_of_le hwrites.planned_le] at hshows
  have hsheets : w.descriptor.sheets = v.descriptor.sheets := by
    have hkept := hfrom.sheets
    rw [hw, hv] at hkept
    exact Option.some.inj hkept
  rw [← hsheets] at hinfo
  have hfile := hrecorded.sheets (by rwa [hfrom.config])
  have hhas : ((file.toWorkbook "book").sheets.get? info.id).isSome := by
    rw [Workbook.isSome_get?_iff, hfile]
    exact ⟨info, hinfo, rfl⟩
  refine ⟨s, L, t, w, file, time, hrun, hsaved, hw, hrecorded.isSaved, hcell, hread, ?_⟩
  rw [← hcell, ← hid]
  exact hshows info hinfo hhas ⟨0, 0⟩ (by simp)

/-- A change of a sheet that the workbook lacks is refused, and is in no file that is saved. -/
theorem saved_file_lacks_sheet : ∃ s L t file time, Run Attentive (.on {}) s L ∧
    Activity.Runs (Rely Attentive) (request (.saveAs (some "book"))).run s L
      (.ok (.saved "book")) t L ∧
    t.document.isDirty = false ∧
    t.store.files.read "book" = .ok (.text (WorkbookFile.text file), time) ∧
    CellEdit.ofState (t.document.cell "Other" ⟨0, 0⟩) ≠
      .ofState ((file.toWorkbook "book").cell "Other" ⟨0, 0⟩) := by
  obtain ⟨s, L, t, b, time, ⟨hrun, hcheck⟩, hb, hsaved, hread, hfrom⟩ := exists_saved_changed
    "Other" (fun s => s.store.workbook.all fun b =>
      CellEdit.ofState (s.document.cell "Other" ⟨0, 0⟩) !=
        .ofState (((WorkbookFile.ofWorkbook b).toWorkbook "book").cell "Other" ⟨0, 0⟩))
    (by decide +kernel)
  rw [hb] at hcheck
  refine ⟨s, L, t, _, time, hrun, hsaved, ?_, hread, ?_⟩
  · rw [hfrom.document]
  · rw [hfrom.document]
    exact bne_iff_ne.mp hcheck

end Session

end SheetSync
