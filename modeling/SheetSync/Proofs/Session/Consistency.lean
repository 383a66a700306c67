import SheetSync.Proofs.Session.Rest
import SheetSync.Proofs.Session.Transfer
/-!
Documents that agree with a local store. Whenever a session has an active workbook, the workbook of
its store shows what the document does, once it took the writes that wait: `Consistent`. Edits,
writes that are carried out, saving and every end of a change of workbook keep this. A change that
fails fails before the store turned, for a local store gives all content of a workbook that it has,
so what is bound again is what was bound before. Main statement: `Consistent.run`, for all of a run.
-/
namespace SheetSync

/-- Lies on the sheet, off its last two rows and columns. -/
def Position.IsInner (p : Position) : Prop := p.row < gridSize - 2 ∧ p.col < gridSize - 2

instance (p : Position) : Decidable p.IsInner := inferInstanceAs (Decidable (_ ∧ _))

theorem Position.IsInner.inGrid {p : Position} (h : p.IsInner) : p.InGrid :=
  ⟨Nat.lt_of_lt_of_le h.1 (Nat.sub_le ..), Nat.lt_of_lt_of_le h.2 (Nat.sub_le ..)⟩

/-- A document that loads the copy of the store's workbook is in step with it. -/
theorem Link.inStep_load {l : Link} {b : Workbook} (hholds : l.store.Holds b) {rows cols : Nat}
    (hpending : (l.perform (.load (b.copy rows cols))).pending = []) :
    (l.perform (.load (b.copy rows cols))).InStep b := by
  obtain ⟨hsheets, -, -⟩ := Document.perform_quiet (d := l.document)
    (a := .load (b.copy rows cols)) fun e he hsource => by
      obtain rfl := Option.some.inj he
      cases hsource
  refine ⟨?_, ?_, fun id _ p => ?_⟩
  · rw [store_perform]
    exact hholds
  · rw [hpending]
    exact fun w hw => by cases hw
  · rw [hpending, perform_eq, Document.cell, hsheets]
    exact (Workbook.ofState_cell_load b rows cols l.document id p).symm

namespace Session

variable {s t m : Session} {L K M : Ledger}

/-- What goes on around a session when nobody but the session touches its store and no listener
answers a change. While a workbook is active, edits are made on its sheets when their changes are
handed on; no edit names a position twice. Between requests a session with a workbook always hands
changes on (`AtRest.stable`), so that they are handed on is a condition on the pauses of a change of
workbook alone. -/
def Orderly (s : Session) : Event → Prop
  | .act (.edit source sheet cells) =>
    source ≠ .load ∧ (cells.map Prod.fst).Nodup ∧ (∀ c ∈ cells, c.1.IsInner) ∧
      ∀ w, s.active = some w → s.sync.isSome ∧ ∃ info ∈ w.descriptor.sheets, info.id = sheet
  | .act (.load _) => False
  | .watch _ _ answer => answer = none
  | .store workbook _ _ => workbook = s.store.workbook
  | _ => True

/-- What stays as it is in a session with a local store that is not watched, when no listener
answers a change. -/
structure Calm (s : Session) : Prop where
  quiet : ∀ e ∈ s.document.listeners, e.2.IsQuiet
  kind : s.store.kind = .local
  watch : s.store.watch = none

/-- Whoever begins to watch does not answer changes. -/
def Event.IsQuiet : Event → Prop
  | .watch _ _ answer => answer = none
  | _ => True

namespace Calm

theorem congr (h : s.Calm) (hlink : t.toLink = s.toLink) : t.Calm := by
  refine ⟨?_, ?_, ?_⟩ <;> rw [hlink]
  · exact h.quiet
  · exact h.kind
  · exact h.watch

/-- The files and the workbook of the store do not matter. -/
theorem withStore (h : s.Calm) (workbook : Option Workbook) (files : FileTree) :
    ({ s with store := { s.store with workbook, files } } : Session).Calm :=
  ⟨h.quiet, h.kind, h.watch⟩

theorem perform (h : s.Calm) (a : DocumentAction) :
    ({ s with toLink := s.toLink.perform a } : Session).Calm := by
  have heq := Link.perform_eq s.toLink a
  obtain ⟨-, hlisteners, -⟩ := Document.perform_quiet (d := s.document) (a := a)
    fun _ _ _ => h.quiet
  refine ⟨?_, ?_, ?_⟩
  · show ∀ e ∈ (s.toLink.perform a).document.listeners, e.2.IsQuiet
    rw [heq]
    exact fun e he => h.quiet e (hlisteners e he)
  · show (s.toLink.perform a).store.kind = .local
    rw [heq]
    exact h.kind
  · show (s.toLink.perform a).store.watch = none
    rw [heq]
    exact h.watch

theorem bound (h : s.Calm) (w : ActiveWorkbook) : (s.bound w).Calm where
  quiet e he := by
    rcases List.mem_append.mp he with he | he
    · exact h.quiet e he
    · obtain rfl := List.mem_singleton.mp he
      trivial
  kind := h.kind
  watch := h.watch

theorem apply (h : s.Calm) {e : Event} (he : Event.IsQuiet e) : (e.apply s).Calm := by
  have hkind : (e.apply s).store.kind = .local := (kind_apply s e).trans h.kind
  have hwatch := watch_apply_eq_none h.watch e
  cases e with
  | act a => exact h.perform a
  | watch label unsubscribes answer =>
    refine ⟨fun l hl => ?_, hkind, hwatch⟩
    rcases List.mem_append.mp hl with hl | hl
    · exact h.quiet l hl
    · obtain rfl := List.mem_singleton.mp hl
      exact he
  | unwatch label =>
    refine ⟨?_, hkind, hwatch⟩
    show ∀ l ∈ (s.document.unsubscribeLabel label).listeners, l.2.IsQuiet
    unfold Document.unsubscribeLabel
    split
    · exact fun l hl => h.quiet l (List.mem_of_mem_filter hl)
    · exact h.quiet
  | _ => exact ⟨h.quiet, hkind, hwatch⟩

theorem detached (h : s.Calm) : s.detached.Calm := by
  unfold Session.detached
  cases s.sync with
  | none => exact h.congr rfl
  | some id => exact ⟨fun e he => h.quiet e (List.mem_of_mem_filter he), h.kind, h.watch⟩

theorem logged (h : s.Calm) (call : Call) : s.store.logged call = s.store :=
  Store.logged_of_watch_eq_none call h.watch

theorem spent (h : s.Calm) : s.store.spent = s.store := Store.spent_of_watch_eq_none h.watch

end Calm

theorem isQuiet_of_orderly {e : Event} (he : Orderly s e) : Event.IsQuiet e := by
  cases e with
  | watch => exact he
  | _ => trivial

/-- A calm session in which all that is read or written at once is within the limit. -/
structure Modest (s : Session) : Prop extends Calm s where
  write : s.maxWriteArea ≤ rangeLimit
  chunk : max s.config.chunkRows 1 * max s.config.chunkCols 1 ≤ rangeLimit

namespace Modest

theorem congr (h : s.Modest) (hlink : t.toLink = s.toLink) (hconfig : t.config = s.config) :
    t.Modest := by
  refine ⟨h.toCalm.congr hlink, ?_, ?_⟩
  · rw [hlink]
    exact h.write
  · rw [hconfig]
    exact h.chunk

theorem withStore (h : s.Modest) (workbook : Option Workbook) (files : FileTree) :
    ({ s with store := { s.store with workbook, files } } : Session).Modest :=
  ⟨h.toCalm.withStore workbook files, h.write, h.chunk⟩

theorem perform (h : s.Modest) (a : DocumentAction) :
    ({ s with toLink := s.toLink.perform a } : Session).Modest := by
  refine ⟨h.toCalm.perform a, ?_, h.chunk⟩
  show (s.toLink.perform a).maxWriteArea ≤ rangeLimit
  rw [Link.perform_eq]
  exact h.write

theorem bound (h : s.Modest) (w : ActiveWorkbook) : (s.bound w).Modest :=
  ⟨h.toCalm.bound w, h.write, h.chunk⟩

theorem apply (h : s.Modest) {e : Event} (he : Orderly s e) : (e.apply s).Modest := by
  have hcalm := h.toCalm.apply (isQuiet_of_orderly he)
  cases e with
  | act a => exact h.perform a
  | _ => exact ⟨hcalm, h.write, h.chunk⟩

theorem detached (h : s.Modest) : s.detached.Modest := by
  refine ⟨h.toCalm.detached, ?_, h.chunk⟩
  show s.detached.maxWriteArea ≤ rangeLimit
  unfold Session.detached
  cases s.sync <;> exact h.write

end Modest

/-- The document and the store of a session with an active workbook are in step. -/
structure Consistent (s : Session) : Prop extends Modest s where
  matched : ∀ w, s.active = some w →
    ∃ b, s.toLink.InStep b ∧ w.descriptor.sheets = b.descriptor.sheets

namespace Consistent

theorem congr (h : s.Consistent) (hlink : t.toLink = s.toLink) (hconfig : t.config = s.config)
    (hactive : t.active = s.active) : t.Consistent where
  toModest := h.toModest.congr hlink hconfig
  matched := by
    rw [hlink, hactive]
    exact h.matched

/-- An event changes the cells of the workbook at most. -/
theorem inStep_apply (h : s.Consistent) (hs : s.Wired) {e : Event} (he : Orderly s e)
    {w : ActiveWorkbook} (hactive : s.active = some w) {b : Workbook} (hb : s.toLink.InStep b)
    (hsheets : w.descriptor.sheets = b.descriptor.sheets) :
    ∃ b', (e.apply s).toLink.InStep b' ∧ Workbook.SameFrame b b' := by
  cases e with
  | act a =>
    cases a with
    | edit source sheet cells =>
      obtain ⟨hsource, hnodup, hinner, hallowed⟩ := he
      obtain ⟨hsync, info, hinfo, hid⟩ := hallowed w hactive
      obtain ⟨id, hsync⟩ := Option.isSome_iff_exists.mp hsync
      have hforwards : s.document.forwards = [id] := by
        rw [hs.forwards, hsync]
        rfl
      -- the sheets of the active workbook are those of the store's, so the edited one is there
      rw [hsheets] at hinfo
      exact ⟨b, hb.edit hforwards h.quiet hsource
        (fun _ => Workbook.isSome_get?_iff.mpr ⟨info, hinfo, hid⟩)
        (Plan.isSound_of_nodup hnodup h.write) (fun c hc => (hinner c hc).inGrid), .refl b⟩
    | load => exact he.elim
    | markSaved => exact ⟨b, hb.perform_silent (a := .markSaved) rfl rfl, .refl b⟩
  | carry => exact hb.carry hs.plain
  | unwatch label =>
    refine ⟨b, hb.congr rfl rfl ?_, .refl b⟩
    show (s.document.unsubscribeLabel label).sheets = s.document.sheets
    unfold Document.unsubscribeLabel
    split <;> rfl
  | store workbook files switches =>
    have hwatch := (h.toModest.apply (e := .store workbook files switches) he).watch
    exact ⟨b, ⟨⟨hb.holds.kind, hwatch, he.trans hb.holds.workbook⟩, hb.fits, hb.shows⟩, .refl b⟩
  | _ => exact ⟨b, hb.congr rfl rfl rfl, .refl b⟩

theorem apply (h : s.Consistent) (hs : s.Wired) {e : Event} (he : Orderly s e) :
    (e.apply s).Consistent where
  toModest := h.toModest.apply he
  matched w hw := by
    have hactive : s.active = some w := (congrArg Course.active (course_apply s e)).symm.trans hw
    obtain ⟨b, hb, hsheets⟩ := h.matched w hactive
    obtain ⟨b', hb', hframe⟩ := h.inStep_apply hs he hactive hb hsheets
    refine ⟨b', hb', hsheets.trans ?_⟩
    rw [hframe.descriptor]

/-- A workbook in step with the document can be bound. -/
theorem bound (h : s.Modest) {b : Workbook} (hb : s.toLink.InStep b) {w : ActiveWorkbook}
    (hsheets : w.descriptor.sheets = b.descriptor.sheets) : (s.bound w).Consistent where
  toModest := h.bound w
  matched v hv := by
    obtain rfl := Option.some.inj hv
    exact ⟨b, hb.congr rfl rfl rfl, hsheets⟩

theorem released (h : s.Modest) : s.released.Consistent where
  toModest := h.congr rfl rfl
  matched w hw := by cases hw

end Consistent

theorem survivesClosing_consistent :
    SurvivesClosing Orderly fun s _ => s.Wired ∧ s.Consistent where
  event _ _ e he hs := ⟨hs.1.apply e, hs.2.apply hs.1 he⟩
  phase _ hs := ⟨hs.1.congr rfl rfl rfl, hs.2.congr rfl rfl rfl⟩
  hook _ _ hs := ⟨hs.1.congr rfl rfl rfl, hs.2.congr rfl rfl rfl⟩

/-! ## Saving -/

theorem survivesSaving_consistent :
    SurvivesSaving Orderly fun s _ => s.Wired ∧ s.Consistent where
  event := survivesClosing_consistent.event
  phase _ hs := ⟨hs.1.congr rfl rfl rfl, hs.2.congr rfl rfl rfl⟩
  busy _ hs := ⟨hs.1.congr rfl rfl rfl, hs.2.congr rfl rfl rfl⟩
  prompts _ hs := ⟨hs.1.congr rfl rfl rfl, hs.2.congr rfl rfl rfl⟩
  services _ hs := ⟨hs.1.congr rfl rfl rfl, hs.2.congr rfl rfl rfl⟩
  log path hs := by
    rw [hs.2.logged]
    exact hs
  spend hs := by
    rw [hs.2.spent]
    exact hs
  files {s _} files hs := by
    refine ⟨hs.1.congr rfl rfl rfl, hs.2.toModest.withStore _ files, ?_⟩
    intro w hw
    obtain ⟨b, hb, hsheets⟩ := hs.2.matched w hw
    exact ⟨b, ⟨⟨hb.holds.kind, hb.holds.watch, hb.holds.workbook⟩, hb.fits, hb.shows⟩, hsheets⟩
  path {s _} path hs := by
    refine ⟨hs.1.congr rfl rfl rfl, hs.2.toModest.withStore _ s.store.files, ?_⟩
    intro w hw
    obtain ⟨b, hb, hsheets⟩ := hs.2.matched w hw
    exact ⟨{ b with path := some path }, hb.withPath path, hsheets⟩
  saved hs := ⟨hs.1.apply_act .markSaved, hs.2.apply hs.1 (e := .act .markSaved) trivial⟩
  rename {s _ w} path refresh hookFor hactive hs := by
    refine ⟨hs.1.congr rfl rfl rfl, hs.2.toModest.congr rfl rfl, ?_⟩
    intro v hv
    obtain rfl := Option.some.inj hv
    exact hs.2.matched w hactive

/-! ## Changing the workbook -/

/-- Whether a local store has the workbook that it turned to. -/
def Turning (d : Descriptor) (s : Session) : Prop :=
  s.Modest ∧ ∃ b, s.store.workbook = some b ∧ d = b.descriptor

theorem survivesSwap_consistent (m : Session) :
    SurvivesSwap Orderly (fun _ => True) fun s _ => Apart m s ∧ s.Consistent := by
  refine .and_apart m ?_ ?_ ?_ ?_ ?_ ?_
  · exact fun s L e he hapart hs => hs.apply hapart.wired he
  · intro s L call _ hs
    rw [hs.logged]
    exact hs
  · intro s L hs
    rw [hs.spent]
    exact hs
  · exact fun hs => hs.congr rfl rfl rfl
  · exact fun _ hs => hs.congr rfl rfl rfl
  · exact fun hs => hs.congr rfl rfl rfl

theorem survivesSwap_turning (m : Session) (d : Descriptor) :
    SurvivesSwap Orderly (fun _ => True) fun s _ => Apart m s ∧ Turning d s := by
  refine .and_apart m ?_ ?_ ?_ ?_ ?_ ?_
  · rintro s L e he hapart ⟨hs, b, hb, hd⟩
    refine ⟨hs.apply he, b, ?_, hd⟩
    rcases Event.store_apply hapart.waiting e with hsame | ⟨workbook, files, switches, rfl⟩
    · rw [hsame]
      exact hb
    · exact he.trans hb
  · rintro s L call _ hs
    rw [hs.1.logged]
    exact hs
  · rintro s L hs
    rw [hs.1.spent]
    exact hs
  · exact fun hs => ⟨hs.1.congr rfl rfl, hs.2⟩
  · exact fun _ hs => ⟨hs.1.congr rfl rfl, hs.2⟩
  · exact fun hs => ⟨hs.1.congr rfl rfl, hs.2⟩

theorem Consistent.detached (h : s.Consistent) : s.detached.Consistent where
  toModest := h.toModest.detached
  matched w hw := by
    obtain ⟨b, hb, hsheets⟩ := h.matched w hw
    refine ⟨b, ?_, hsheets⟩
    unfold Session.detached
    cases s.sync with
    | none => exact hb
    | some id => exact hb.congr rfl rfl rfl

/-- All content of the workbook is loaded. -/
theorem achieves_loadContent_of_turning {d : Descriptor} (hs : Turning d s)
    {post : Except SyncError Snapshot → Session → Ledger → Prop}
    (h : ∀ b rows cols, s.store.Holds b → d = b.descriptor → post (.ok (b.copy rows cols)) s L) :
    Achieves (Rely Orderly) (loadContent d) s L post := by
  obtain ⟨hs, b, hbook, rfl⟩ := hs
  have hholds : s.store.Holds b := ⟨hs.kind, hs.watch, hbook⟩
  refine achieves_bind.mpr (achieves_get.mpr (achieves_command.mpr ?_))
  refine commands_loadSnapshot hholds fun r hr => ?_
  obtain rfl := hr.eq_ok hs.chunk
  exact h b _ _ hholds rfl

/-- A session that installed the copy of its store's workbook is in step. -/
theorem Installed.inStep {signature : Signature} {b : Workbook} {rows cols : Nat}
    (h : Installed b.descriptor signature (b.copy rows cols) s t) (hs : s.Wired)
    (hsync : s.sync = none) (hcalm : s.Calm) (hholds : s.store.Holds b) :
    t.Calm ∧ t.toLink.InStep b ∧ t.document.sheets = Document.loadSheets (b.copy rows cols) ∧
      ∃ id, t.active = some ⟨b.descriptor, signature, id⟩ := by
  -- loading enqueues nothing, as nothing is handed on yet
  have hload := (hs.apply_act (.load (b.copy rows cols))).idle hsync
  obtain ⟨id, caches, tokens, -, -, rfl⟩ := h
  have hlink : (s.loaded (b.copy rows cols) caches tokens).toLink =
      (s.toLink.perform (.load (b.copy rows cols))).perform .markSaved := by
    have hstore : ((s.toLink.perform (.load (b.copy rows cols))).perform .markSaved).store =
        s.store := (Link.store_perform _ _).trans (Link.store_perform _ _)
    rw [loaded, hcalm.logged, hcalm.logged, ← hstore]
  have hstep : (s.loaded (b.copy rows cols) caches tokens).toLink.InStep b := by
    rw [hlink]
    exact (Link.inStep_load hholds (Queue.actions_eq_nil.mpr hload)).perform_silent
      (a := .markSaved) rfl rfl
  have hcalm : (s.loaded (b.copy rows cols) caches tokens).Calm :=
    ((hcalm.perform (.load (b.copy rows cols))).perform .markSaved).congr hlink
  refine ⟨(hcalm.bound ⟨b.descriptor, signature, id⟩).congr rfl, hstep.congr rfl rfl rfl, ?_,
    id, rfl⟩
  show (s.loaded (b.copy rows cols) caches tokens).document.sheets = _
  obtain ⟨hsheets, -, -⟩ := Document.perform_quiet (d := s.document)
    (a := .load (b.copy rows cols)) fun e he hsource => by
      obtain rfl := Option.some.inj he
      cases hsource
  rw [loaded, Link.perform_eq, Link.perform_eq]
  exact hsheets

theorem Installed.consistent {signature : Signature} {b : Workbook}
    {rows cols : Nat} (h : Installed b.descriptor signature (b.copy rows cols) s t)
    (hs : s.Wired) (hsync : s.sync = none) (hmodest : s.Modest) (hholds : s.store.Holds b) :
    t.Consistent := by
  obtain ⟨hcalm, hstep, -, id, hactive⟩ := h.inStep hs hsync hmodest.toCalm hholds
  have hsame : t.maxWriteArea = s.maxWriteArea ∧ t.config = s.config := by
    obtain ⟨id, caches, tokens, -, -, rfl⟩ := h
    rw [loaded, Link.perform_eq, Link.perform_eq]
    exact ⟨rfl, rfl⟩
  refine ⟨⟨hcalm, ?_, ?_⟩, fun w hw => ⟨b, hstep, ?_⟩⟩
  · rw [hsame.1]
    exact hmodest.write
  · rw [hsame.2]
    exact hmodest.chunk
  · obtain rfl := Option.some.inj (hactive.symm.trans hw)
    rfl

/-- However a change of workbook ends, document and store are in step. -/
theorem achieves_swap_consistent {target : Target} (hm : m.Wired) (hidle : m.isIdle)
    (hphase : m.phase = .draining ∨ m.phase = .beforeClose) (h : m.Consistent) :
    Achieves (Rely Orderly) (swap target m.active) m M fun _ t _ => t.Consistent := by
  have hI := survivesSwap_consistent m
  have hstart : (Session.detached { m with phase := .closing }).Consistent :=
    Consistent.detached (h.congr rfl rfl rfl)
  refine achieves_swap hphase (fun s _ => Apart m s ∧ s.Consistent)
    (fun d s _ => Apart m s ∧ Turning d s)
    (fun d r s => ∃ b rows cols, r = .ok (b.copy rows cols) ∧ s.store.Holds b ∧ d = b.descriptor)
    hI ⟨.start hm hidle _, ?_⟩ ?_ ?_ (survivesSwap_turning m) (fun _ => trivial) ?_ ?_ ?_
  · rw [h.logged, ← store_detached]
    exact hstart
  -- the store did not turn: what was in step before is bound again
  · rintro fault s L - ⟨hapart, hs⟩
    cases hactive : m.active with
    | none => exact achieves_recover_none false ⟨_, rfl, .released (hs.toModest.congr rfl rfl)⟩
    | some w =>
      obtain ⟨b, hb, hsheets⟩ := hs.matched w (hapart.active.trans hactive)
      have hmodest : ({ s with phase := .rollingBack, caches := s.caches.reset w.signature } :
          Session).Modest := hs.toModest.congr rfl rfl
      exact achieves_recover_unturned ⟨_, rfl, .bound hmodest hb hsheets⟩
  · rintro d s _ L ⟨hapart, hs⟩ (⟨b, rfl, rfl, -⟩ | ⟨rfl, hkind, -⟩)
    · refine ⟨hapart.withStore _, hs.withStore _ s.store.files, b, rfl, rfl⟩
    · exact absurd hs.kind hkind
  · rintro d s L ⟨hapart, hs⟩ hloading
    refine achieves_loadContent_of_turning hs fun b rows cols hholds hd => ?_
    exact ⟨⟨⟨hapart, hs⟩, hloading⟩, b, rows, cols, rfl, hholds, hd⟩
  -- the content of a workbook that the store has can always be read
  · rintro d e s L - ⟨b, rows, cols, ⟨⟩, -⟩
  · rintro d s L content t ⟨hapart, hs⟩ ⟨b, rows, cols, hcontent, hholds, rfl⟩ ⟨signature, -, ht⟩
    obtain rfl := Except.ok.inj hcontent
    exact ht.consistent hapart.wired hapart.sync hs.1 hholds

/-! ## Runs -/

theorem IsNew.consistent (h : s.IsNew) (hkind : s.store.kind = .local)
    (hwatch : s.store.watch = none) (hwrite : s.config.maxWriteArea ≤ rangeLimit)
    (hchunk : s.config.chunkRows * s.config.chunkCols ≤ rangeLimit) : s.Consistent := by
  have hmax : max s.config.chunkRows 1 * max s.config.chunkCols 1 ≤ rangeLimit := by
    obtain ⟨hrows, hcols⟩ := Config.chunk_pos h.validated
    rwa [Nat.max_eq_left hrows, Nat.max_eq_left hcols]
  rw [h.eq]
  refine ⟨⟨⟨fun e he => ?_, hkind, hwatch⟩, hwrite, hmax⟩, fun w hw => ?_⟩
  · cases he
  · cases hw

/-- Along a run, document and store are in step. -/
theorem Consistent.run {s₀ : Session} (hnew : s₀.AtRest) (h : s₀.Consistent)
    (hrun : Run Orderly s₀ s L) : s.Consistent := by
  -- on the run, with `Consistent` as its invariant: events, requests to save, changes of workbook
  refine Run.induct (I := fun s _ => s.Consistent) hnew h ?_ ?_ ?_ hrun
  · exact fun s L e hrest he hs => hs.apply hrest.wired he
  · intro s L r reply t K hr hrest hs hreq
    exact (achieves_saveRequest survivesSaving_consistent hr hrest ⟨hrest.wired, hs⟩ _ _ _ hreq).2.2
  · intro s L target reply t K hrest hs hreq
    rcases exists_turnsAt hrest.isBusy hrest.stable.phase_eq hreq with
      ⟨-, -, prompts, rfl⟩ | ⟨m, M, hturn⟩
    · exact hs.congr rfl rfl rfl
    · obtain ⟨hidle, hphase, hcourse, hwired, hm⟩ := hturn.closing survivesClosing_consistent
        fun prompts => ⟨hrest.wired.congr rfl rfl rfl, hs.congr rfl rfl rfl⟩
      have hswap : Achieves (Rely Orderly) (swap target m.active) m M _ :=
        achieves_swap_consistent hwired hidle hphase hm
      rw [show m.active = s.active from congrArg Course.active hcourse] at hswap
      obtain ⟨u, hu, rfl⟩ := hturn.ends hswap
      exact hu.congr rfl rfl rfl

/-- What is known all along of a session with a given workbook. -/
theorem survives_consistent (w : ActiveWorkbook) :
    Survives Orderly fun s _ => s.active = some w ∧ s.Wired ∧ s.Consistent := by
  rintro s L e he ⟨hactive, hs⟩
  exact ⟨(congrArg Course.active (course_apply s e)).trans hactive,
    survivesClosing_consistent.event s L e he hs⟩

theorem Consistent.agrees (h : s.Consistent) {w : ActiveWorkbook} (hactive : s.active = some w)
    (hidle : s.isIdle) : s.toLink.Agrees := by
  obtain ⟨b, hb, -⟩ := h.matched w hactive
  exact hb.agrees (Queue.isIdle_iff.mp hidle)

/-- In every state of a run in which a session over a local store is active, the store's workbook,
once it took the writes that wait, shows what the document does, on every sheet and at every
position. It does so too whenever the session has waited for its writes. -/
theorem document_agrees {s₀ : Session} (hnew : s₀.IsNew) (hkind : s₀.store.kind = .local)
    (hwatch : s₀.store.watch = none) (hwrite : s₀.config.maxWriteArea ≤ rangeLimit)
    (hchunk : s₀.config.chunkRows * s₀.config.chunkCols ≤ rangeLimit)
    (hrun : Run Orderly s₀ s L) (hphase : s.phase = .active) :
    s.toLink.drain.Agrees ∧
      ((settle.perform s).1 = .ok () ∧ (settle.perform s).2.toLink.Agrees) ∧
      Achieves (Rely Orderly) settle s L fun r t _ => r = .ok () ∧ t.isIdle ∧ t.toLink.Agrees := by
  have hrest := hrun.atRest hnew.atRest
  have hs : s.Consistent := .run hnew.atRest (hnew.consistent hkind hwatch hwrite hchunk) hrun
  obtain ⟨w, hactive⟩ : ∃ w, s.active = some w := by
    have hstable : s.phase = if s.active.isSome then .active else .idle := hrest.stable.phase
    rw [hphase] at hstable
    split at hstable
    · next hsome => exact Option.isSome_iff_exists.mp hsome
    · cases hstable
  obtain ⟨b, hb, -⟩ := hs.matched w hactive
  have hI := survives_consistent w
  have hknown : s.active = some w ∧ s.Wired ∧ s.Consistent := ⟨hactive, hrest.wired, hs⟩
  refine ⟨hb.agrees_drain hrest.wired.plain, ?_, ?_⟩
  · obtain ⟨hr, hidle, hactive, -, ht⟩ :=
      perform_settle hI (fun s hs => hs.2.1) (fun _ => trivial) hknown
    exact ⟨hr, ht.agrees hactive hidle⟩
  · refine (achieves_settle hI.rely hI.queue hknown).imp ?_
    rintro r t K ⟨hr, hidle, hactive, -, ht⟩
    exact ⟨hr, hidle, ht.agrees hactive hidle⟩

theorem document_agrees_after_change : ∃ s L, Run Orderly (.on {}) s L ∧ s.phase = .active ∧
    s.toLink.pending.length = 1 ∧ s.toLink.drain.Agrees := by
  have hends : ((request (.switch .blank)).run (.on {})).end?.any fun first =>
      first.2.phase == .active && (((Event.act oneChange).apply first.2).toLink.pending.length == 1 &&
        first.2.active.all fun w => w.descriptor.sheets.any fun info => info.id == defaultSheet) := by
    decide +kernel
  obtain ⟨⟨r, s⟩, hs, hends⟩ := (Option.any_eq_true _ _).mp hends
  obtain ⟨hphase, hends⟩ := Bool.and_eq_true_iff.mp hends
  obtain ⟨hlength, hsheets⟩ := Bool.and_eq_true_iff.mp hends
  have hstart : Run Orderly _ s _ := Run.of_end? hs
  have hrest := hstart.atRest (isNew_on _).atRest
  have horderly : Orderly s (.act oneChange) := by
    refine ⟨by decide, List.nodup_singleton _, ?_, fun w hw => ⟨?_, ?_⟩⟩
    · intro c hc
      obtain rfl := List.mem_singleton.mp hc
      exact ⟨by decide, by decide⟩
    · exact (show s.sync.isSome = s.active.isSome from hrest.stable.sync).trans (by rw [hw]; rfl)
    · rw [hw] at hsheets
      obtain ⟨info, hinfo, hid⟩ := List.any_eq_true.mp hsheets
      exact ⟨info, hinfo, eq_of_beq hid⟩
  have hrun := hstart.event (.act oneChange) horderly
  have hactive : ((Event.act oneChange).apply s).phase = .active :=
    (congrArg Course.phase (course_apply s (.act oneChange))).trans (eq_of_beq hphase)
  exact ⟨_, _, hrun, hactive, eq_of_beq hlength,
    (document_agrees (isNew_on _) rfl rfl (by decide) (by decide) hrun hactive).1⟩

end Session

end SheetSync
