import SheetSync.Proofs.Cache.Workbook
import SheetSync.Proofs.Session.Steps
/-!
Changing the workbook of a store. From the moment when a session is taken apart from its workbook
until one is bound again, nothing that is done to the document reaches the queue, and the course of
the session changes in few places: `Apart`. Main statements: `achieves_turnStore`,
`achieves_loadTarget` and those on `recover`, one for each stage, which say where the stage can end
and in what state, and `achieves_swap`, which puts the stages together.
-/
namespace SheetSync

/-- The phases in which a session has no workbook bound. -/
def Phase.isTurning : Phase → Bool
  | .closing | .loading | .rollingBack => true
  | _ => false

/-- The call by which a store is turned to a target. -/
def Target.call : Target → Call
  | .file path => .openWorkbook path
  | .blank => .newWorkbook

/-- Whether a workbook is what a target names. -/
def Target.Gives (files : FileTree) (b : Workbook) : Target → Prop
  | .file path => b.IsAt path files
  | .blank => b = .blank

namespace Event

variable {s : Session}

/-- While nothing is handed on and nothing waits, there is nothing to note. -/
theorem note_eq_self (hs : s.Wired) (hsync : s.sync = none) (e : Event) (L : Ledger) :
    e.note s L = L := by
  cases e with
  | act a =>
    show { L with planned := L.planned ++ s.toLink.planned a } = L
    rw [hs.planned_eq_nil hsync, List.append_nil]
  | carry =>
    have hpending : s.toLink.pending = [] := Queue.actions_eq_nil.mpr (hs.idle hsync)
    simp only [note, hpending]
  | _ => rfl

/-- While nothing waits, only who changes the store changes it. -/
theorem store_apply (hidle : s.queue.waiting = []) (e : Event) :
    (e.apply s).store = s.store ∨ ∃ workbook files switches, e = .store workbook files switches := by
  cases e with
  | act a =>
    left
    show (s.toLink.perform a).store = s.store
    rw [Link.perform_eq]
  | carry =>
    left
    show (s.queue.runOne Link.runWrite s.store).2 = s.store
    rw [Queue.runOne_state, Queue.actions_eq_nil.mpr hidle]
    rfl
  | store workbook files switches => exact .inr ⟨_, _, _, rfl⟩
  | _ => exact .inl rfl

@[simp] theorem calls_apply_store (workbook : Option Workbook) (files : FileTree)
    (switches : Watch) :
    ((Event.store workbook files switches).apply s).store.calls = s.store.calls := by
  cases hw : s.store.watch <;> simp [apply, Store.calls, hw]

end Event

/-- Whether an id is one for a workbook: that of its durable path, or a session token where it has
none. -/
def Descriptor.IsNamed (d : Descriptor) (id : WorkbookId) : Prop :=
  match d.durablePath? with
  | some path => id = .ofPath path
  | none => ∃ source : TokenSource, id = ⟨source.token⟩

namespace WorkbookCaches

/-- Whether both caches are scoped to a signature. -/
structure IsFor (c : WorkbookCaches) (signature : Signature) : Prop where
  names : c.names.scope = some signature
  tables : c.tables.scope = some signature

theorem isFor_reset (c : WorkbookCaches) (signature : Signature) :
    (c.reset signature).IsFor signature := ⟨rfl, rfl⟩

/-- Names and tables that are added, or refused, leave the scopes as they are. -/
theorem IsFor.populate {c : WorkbookCaches} {signature : Signature} (h : c.IsFor signature)
    (given : Signature) (names : List DefinedName) (tables : List Table) :
    (c.populate given names tables).1.IsFor signature := by
  by_cases hgiven : signature = given
  · subst hgiven
    rw [populate_of_scope h.names h.tables]
    exact ⟨(ScopedCache.scope_act_merge ..).trans h.names,
      (ScopedCache.scope_act_merge ..).trans h.tables⟩
  · rw [populate_of_ne (by simpa [h.names] using hgiven)]
    exact h

end WorkbookCaches

namespace Session

variable {may : Session → Event → Prop} {s t m : Session} {L K M : Ledger}

/-- Whether nobody else scopes the caches anew. -/
def KeepsScopes (may : Session → Event → Prop) : Prop :=
  ∀ s e signature, may s e → s.caches.IsFor signature → (e.apply s).caches.IsFor signature

/-- A session on its way to a workbook, taken apart from the one that it had in a state `m`. -/
structure Apart (m s : Session) : Prop where
  wired : s.Wired
  course : s.course =
    { m.course with phase := s.phase, sync := none, hookFor := none, tokens := s.tokens }
  phase : s.phase.isTurning
  key : s.tokens.key = m.tokens.key
  given : m.tokens.given ≤ s.tokens.given

namespace Apart

theorem sync (h : Apart m s) : s.sync = none := congrArg Course.sync h.course

theorem active (h : Apart m s) : s.active = m.active := congrArg Course.active h.course

theorem waiting (h : Apart m s) : s.queue.waiting = [] := h.wired.idle h.sync

theorem apply (h : Apart m s) (e : Event) : Apart m (e.apply s) := by
  have hphase : (e.apply s).phase = s.phase := congrArg Course.phase (course_apply s e)
  have htokens : (e.apply s).tokens = s.tokens := congrArg Course.tokens (course_apply s e)
  refine ⟨h.wired.apply e, ?_, ?_, ?_, ?_⟩
  · rw [course_apply, hphase, htokens]
    exact h.course
  · rw [hphase]
    exact h.phase
  · rw [htokens]
    exact h.key
  · rw [htokens]
    exact h.given

theorem withStore (h : Apart m s) (store : Store) : Apart m { s with store } :=
  ⟨h.wired.congr rfl rfl rfl, h.course, h.phase, h.key, h.given⟩

theorem withCaches (h : Apart m s) (caches : WorkbookCaches) : Apart m { s with caches } :=
  ⟨h.wired.congr rfl rfl rfl, h.course, h.phase, h.key, h.given⟩

theorem withPhase (h : Apart m s) {p : Phase} (hp : p.isTurning) :
    Apart m { s with phase := p } := by
  refine ⟨h.wired.congr rfl rfl rfl, ?_, hp, h.key, h.given⟩
  show { s.course with phase := p } = _
  rw [h.course]

theorem withToken (h : Apart m s) : Apart m { s with tokens := s.tokens.next.2 } := by
  refine ⟨h.wired.congr rfl rfl rfl, ?_, h.phase, h.key, Nat.le_succ_of_le h.given⟩
  show { s.course with tokens := s.tokens.next.2 } = _
  rw [h.course]

end Apart

/-- What survives the steps of a session on its way to a workbook, whatever others do. -/
structure SurvivesSwap (may : Session → Event → Prop) (loggable : Call → Prop)
    (I : Session → Ledger → Prop) : Prop where
  event : Survives may I
  log : ∀ {s L call}, loggable call → I s L → I { s with store := s.store.logged call } L
  spend : ∀ {s L}, I s L → I { s with store := s.store.spent } L
  phase : ∀ {s L} {p : Phase}, p.isTurning → I s L → I { s with phase := p } L
  caches : ∀ {s L} (c : WorkbookCaches), I s L → I { s with caches := c } L
  token : ∀ {s L}, I s L → I { s with tokens := s.tokens.next.2 } L

namespace SurvivesSwap

variable {loggable : Call → Prop} {I J : Session → Ledger → Prop}

theorem lasting (hI : SurvivesSwap may loggable I) : Lasting (Rely may) loggable I where
  rely hk hs := hI.event.rely hk hs
  log := hI.log
  spend := hI.spend

theorem apart (m : Session) : SurvivesSwap may (fun _ => True) fun s _ => Apart m s where
  event _ _ e _ hs := hs.apply e
  log _ hs := hs.withStore _
  spend hs := hs.withStore _
  phase hp hs := hs.withPhase hp
  caches c hs := hs.withCaches c
  token hs := hs.withToken

/-- What survives as long as a session is on its way to a workbook. -/
theorem and_apart (m : Session) {J : Session → Ledger → Prop}
    (hevent : ∀ s L e, may s e → Apart m s → J s L → J (e.apply s) (e.note s L))
    (hlog : ∀ {s L call}, loggable call → J s L →
      J { s with store := s.store.logged call } L)
    (hspend : ∀ {s L}, J s L → J { s with store := s.store.spent } L)
    (hphase : ∀ {s L} {p : Phase}, J s L → J { s with phase := p } L)
    (hcaches : ∀ {s L} (c : WorkbookCaches), J s L → J { s with caches := c } L)
    (htoken : ∀ {s L}, J s L → J { s with tokens := s.tokens.next.2 } L) :
    SurvivesSwap may loggable fun s L => Apart m s ∧ J s L where
  event s L e hmay hs := ⟨hs.1.apply e, hevent s L e hmay hs.1 hs.2⟩
  log hcall hs := ⟨hs.1.withStore _, hlog hcall hs.2⟩
  spend hs := ⟨hs.1.withStore _, hspend hs.2⟩
  phase hp hs := ⟨hs.1.withPhase hp, hphase hs.2⟩
  caches c hs := ⟨hs.1.withCaches c, hcaches c hs.2⟩
  token hs := ⟨hs.1.withToken, htoken hs.2⟩

/-- What survives along with a phase, as long as the phase stays. -/
theorem lasting_phase (hI : SurvivesSwap may loggable I) (p : Phase) :
    Lasting (Rely may) loggable fun s L => I s L ∧ s.phase = p where
  rely {k s L t K} hk hs := by
    have hphase : t.phase = s.phase := congrArg Course.phase (course_of_meanwhile hk.1)
    exact ⟨hI.event.rely hk hs.1, hphase.trans hs.2⟩
  log hcall hs := ⟨hI.log hcall hs.1, hs.2⟩
  spend hs := ⟨hI.spend hs.1, hs.2⟩

end SurvivesSwap

/-! ## Turning the store -/

/-- What became of a session whose store turned to a target: it has the workbook that the target
names, unless it keeps none. -/
def Turned (target : Target) (d : Descriptor) (s t : Session) : Prop :=
  (∃ b, t = s.withBook b ∧ d = b.descriptor ∧ target.Gives s.store.files b) ∨
    (t = s ∧ s.store.kind ≠ .local ∧ d = Workbook.blank.descriptor)

/-! ## Binding -/

section Binding

variable {γ : Type} {rely : Pause → Session → γ → Session → γ → Prop} {g : γ}

/-- The caches of a session after they were filled with what its store lists. -/
def filled (signature : Signature) (s : Session) : WorkbookCaches :=
  (s.caches.populate signature s.store.listedNames s.store.listedTables).1

theorem achieves_fillCaches (signature : Signature)
    {post : Except SyncError Unit → Session → γ → Prop} :
    Achieves rely (fillCaches signature) s g post ↔ post (.ok ()) { s with
      store := (s.store.logged .listNames).logged .listTables, caches := s.filled signature } g := by
  have hlisted := Store.listedTables_logged .listNames s.store
  refine achieves_bind.trans (achieves_tryCatch.trans (achieves_command.trans ?_))
  refine commands_listNames.trans ?_
  have htables : ∀ names, Achieves rely
      ((try command Store.listTables catch _ => pure []) >>= fun tables =>
        modify fun s => { s with caches := (s.caches.populate signature names tables).1 } :
          SessionM Unit)
      { s with store := s.store.logged .listNames } g post ↔ post (.ok ()) { s with
        store := (s.store.logged .listNames).logged .listTables
        caches := (s.caches.populate signature names s.store.listedTables).1 } g := by
    intro names
    refine achieves_bind.trans (achieves_tryCatch.trans (achieves_command.trans ?_))
    refine commands_listTables.trans ?_
    -- a store that fails to list anything lists nothing
    rw [← hlisted, Store.listedTables]
    cases (Store.listTables.perform (s.store.logged .listNames)).1 with
    | ok tables => exact achieves_modify _
    | error e => exact (achieves_pure _).trans (achieves_modify _)
  rw [filled, Store.listedNames]
  cases (Store.listNames.perform s.store).1 with
  | ok names => exact htables names
  | error e => exact (achieves_pure _).trans (htables [])

/-- The session with content brought into its document, some caches and some tokens left. -/
def loaded (content : Snapshot) (caches : WorkbookCaches) (tokens : TokenSource) (s : Session) :
    Session :=
  { s with
    toLink := { (s.toLink.perform (.load content)).perform .markSaved with
      store := (s.store.logged .listNames).logged .listTables }
    caches, tokens }

/-- What became of a session that brought content into its document and bound the workbook. -/
def Installed (d : Descriptor) (signature : Signature) (content : Snapshot) (s t : Session) :
    Prop :=
  ∃ id caches tokens, d.IsNamed id ∧ caches = s.filled signature ∧
    t = { bound { descriptor := d, signature, id }
      (s.loaded content caches tokens) with
    services := s.services.map fun v => { v with restarts := v.restarts ++ [id] } }

theorem achieves_install {d : Descriptor} {signature : Signature} {content : Snapshot}
    (hphase : s.phase = .loading) {post : Except SyncError Unit → Session → γ → Prop}
    (h : ∀ t, Installed d signature content s t → post (.ok ()) t g) :
    Achieves rely (install d signature content) s g post := by
  refine achieves_bind.mpr ((achieves_modify _).mpr ?_)
  refine achieves_bind.mpr ((achieves_modify _).mpr ?_)
  refine achieves_bind.mpr ((achieves_fillCaches signature).mpr ?_)
  simp only [filled, Link.store_perform]
  have hrest : ∀ id (u : Session), u.phase = .loading →
      post (.ok ()) { u.bound { descriptor := d, signature, id } with
        services := u.services.map fun v => { v with restarts := v.restarts ++ [id] } } g →
      Achieves rely
        (do
          advance .active
          bind { descriptor := d, signature, id }
          restartServices id : SessionM Unit) u g post := by
    intro id u hu hpost
    have hpermits : u.phase.Permits .active := by rw [hu]; decide
    refine achieves_bind.mpr ((achieves_advance hpermits).mpr ?_)
    exact achieves_bind.mpr ((achieves_bound _).mpr ((achieves_modify _).mpr hpost))
  unfold identify
  cases hpath : d.durablePath? with
  | some path =>
    refine achieves_bind.mpr ((achieves_pure _).mpr (hrest _ _ hphase (h _ ?_)))
    exact ⟨_, _, s.tokens, by rw [Descriptor.IsNamed, hpath], rfl, rfl⟩
  | none =>
    refine achieves_bind.mpr (achieves_bind.mpr (achieves_newToken.mpr ?_))
    refine (achieves_pure _).mpr (hrest _ _ hphase (h _ ?_))
    exact ⟨_, _, s.tokens.next.2, by rw [Descriptor.IsNamed, hpath]; exact ⟨_, rfl⟩, rfl, rfl⟩

end Binding

section Stages

variable {loggable : Call → Prop} {I : Session → Ledger → Prop}

/-- A store that does not turn stays as it is. -/
theorem achieves_turnStore (hI : Lasting (Rely may) loggable I) {target : Target}
    (hs : I { s with store := s.store.logged target.call } L) :
    Achieves (Rely may) (turnStore target) s L fun
      | .ok d, t, K => ∃ u, I u K ∧ Turned target d u t
      | .error e, t, K => I t K ∧ ∃ fault, e = .store fault := by
  cases target with
  | file path =>
    refine achieves_command.mpr ((hI.openWorkbook hs).imp fun r t K ht => ?_)
    cases r with
    | error fault => exact ⟨ht, fault, rfl⟩
    | ok d =>
      obtain ⟨u, b, hu, rfl, hb, rfl⟩ := ht
      exact ⟨u, hu, .inl ⟨b, rfl, rfl, hb⟩⟩
  | blank =>
    refine achieves_command.mpr (commands_newWorkbook.mpr ?_)
    refine ⟨_, hs, ?_⟩
    split
    · exact .inl ⟨.blank, rfl, rfl, rfl⟩
    · next hkind => exact .inr ⟨rfl, hkind, rfl⟩

/-- While content is read, the caches stay scoped as they are. -/
theorem achieves_loadContent_isFor {d : Descriptor} {signature : Signature}
    (hs : s.caches.IsFor signature) :
    Achieves (Rely may) (loadContent d) s L fun _ t _ =>
      KeepsScopes may → t.caches.IsFor signature := by
  have hlasting : Lasting (Rely may) (fun _ => True)
      fun s (_ : Ledger) => KeepsScopes may → s.caches.IsFor signature :=
    { rely := fun hk hs hscopes => hk.1.keeps (I := fun t _ => t.caches.IsFor signature)
        (fun s _ e hmay ht => hscopes s e signature hmay ht) (hs hscopes)
      log := fun _ hs => hs
      spend := fun hs => hs }
  refine achieves_bind.mpr (achieves_get.mpr ?_)
  exact (hlasting.readable.loadSnapshot (fun _ _ => trivial) d _ _).keeps s L fun _ => hs

/-- Content is loaded as a whole, or nothing of it comes to the document. `C` is what is known when
content was read, or could not be read. -/
theorem achieves_loadTarget (hI : SurvivesSwap may loggable I) {d : Descriptor}
    (hcall : ∀ path, loggable (.statFile path))
    (hphase : s.phase = .closing) (hs : I s L) {C : Except SyncError Snapshot → Session → Prop}
    (hload : ∀ t K, I t K → t.phase = .loading →
      Achieves (Rely may) (loadContent d) t K fun r u M => (I u M ∧ u.phase = .loading) ∧ C r u)
    {post : Except SyncError Unit → Session → Ledger → Prop}
    (herror : ∀ e t K, I t K → C (.error e) t → post (.error e) t K)
    (hinstall : ∀ t K content u, I t K → C (.ok content) t →
      (∃ signature, (KeepsScopes may → t.caches.IsFor signature) ∧
        Installed d signature content t u) → post (.ok ()) u K) :
    Achieves (Rely may) (loadTarget d) s L post := by
  have hlasting := hI.lasting_phase .closing
  refine achieves_bind.mpr (achieves_newToken.mpr ?_)
  refine achieves_bind.mpr (achieves_command.mpr
    ((hlasting.signature hcall d s.tokens.token ⟨hI.token hs, hphase⟩).imp ?_))
  rintro _ t K ⟨⟨ht, hclosing⟩, signature, rfl⟩
  refine achieves_bind.mpr ((achieves_setScope signature).mpr ?_)
  have ht := hI.caches (t.caches.reset signature) ht
  have hscope := t.caches.isFor_reset signature
  -- from here on only what is known of the session counts, not how it was built
  generalize hu : { t with caches := t.caches.reset signature } = u at ht ⊢
  replace hscope : u.caches.IsFor signature := hu ▸ hscope
  have hpermits : u.phase.Permits .loading := by
    rw [← hu, hclosing]
    decide
  refine achieves_bind.mpr ((achieves_advance hpermits).mpr ?_)
  have ht' := hI.phase (p := .loading) rfl ht
  refine achieves_bind.mpr (Achieves.imp
    ((hload _ K ht' rfl).and (achieves_loadContent_isFor hscope)) ?_)
  rintro (e | content) v M ⟨⟨⟨hv, hloading⟩, hC⟩, hscope⟩
  · exact herror e v M hv hC
  · exact achieves_install hloading fun w hw =>
      hinstall v M content w hv hC ⟨signature, hscope, hw⟩

/-- Content that is loaded may be any, and a store may fail to give it. -/
def AnyContent (r : Except SyncError Snapshot) : Prop :=
  ∀ e, r = .error e → ∃ fault, e = .store fault

theorem achieves_loadContent (hI : SurvivesSwap may loggable I)
    (hread : ∀ call : Call, call.isRead → loggable call) {d : Descriptor} (hs : I s L)
    (hphase : s.phase = .loading) :
    Achieves (Rely may) (loadContent d) s L fun r t K =>
      (I t K ∧ t.phase = .loading) ∧ AnyContent r := by
  refine achieves_bind.mpr (achieves_get.mpr ?_)
  have hlasting := hI.lasting_phase .loading
  exact (hlasting.readable.loadSnapshot hread d _ _).achieves ⟨hs, hphase⟩

/-- A store that is put back may fail at any call. `I` is what is known until it has turned, and
`I'` what is known from then on. -/
theorem achieves_restoreStore_of {I' : Session → Ledger → Prop} {loggable' : Call → Prop}
    (hI : Lasting (Rely may) loggable I) (hI' : Rewritable (Rely may) loggable' I')
    (hused : ∀ sheet, loggable' (.usedRange sheet))
    (hwrite : ∀ sheet rect, loggable' (.setRange sheet rect)) {w : ActiveWorkbook}
    (hturned : ∀ d s t K, I s K → Turned w.source d s t → I' t K)
    (hs : I { s with store := s.store.logged w.source.call } L) :
    Achieves (Rely may) (restoreStore w) s L fun r t K => I' t K ∨ (I t K ∧ ∃ e, r = .error e) := by
  refine achieves_bind.mpr ((achieves_turnStore hI hs).imp fun r t K ht => ?_)
  cases r with
  | error e => exact .inr ⟨ht.1, e, rfl⟩
  | ok d =>
    obtain ⟨u, hu, hturn⟩ := ht
    have ht := hturned d u t K hu hturn
    refine achieves_bind.mpr (achieves_get.mpr ?_)
    have hreplay := hI'.replaySnapshot hused hwrite d t.document.snapshot
      t.config.chunkRows t.config.chunkCols
    refine achieves_bind.mpr ((hreplay.keeps t K ht).imp fun r u M hu => ?_)
    cases r with
    | ok => exact (achieves_pure _).mpr (.inl hu)
    | error e => exact .inl hu

/-- What survives any workbook in the store survives that it is put back. -/
theorem achieves_restoreStore (hI : SurvivesSwap may loggable I)
    (hbook : ∀ {s L} b, I s L → I (s.withBook b) L) (hused : ∀ sheet, loggable (.usedRange sheet))
    (hwrite : ∀ sheet rect, loggable (.setRange sheet rect)) {w : ActiveWorkbook}
    (hs : I { s with store := s.store.logged w.source.call } L) :
    Achieves (Rely may) (restoreStore w) s L fun _ t K => I t K := by
  have hwritable : Rewritable (Rely may) loggable I := ⟨hI.lasting, fun _ _ hs => hbook _ hs⟩
  refine (achieves_restoreStore_of hI.lasting hwritable hused hwrite ?_ hs).imp ?_
  · rintro d s _ K hs (⟨b, rfl, -⟩ | ⟨rfl, -⟩)
    · exact hbook b hs
    · exact hs
  · rintro r t K (ht | ⟨ht, -⟩) <;> exact ht

end Stages

/-! ## Failing -/

section Recover

variable {γ : Type} {rely : Pause → Session → γ → Session → γ → Prop} {g : γ} {e : SyncError}
  {post : Except SyncError SyncError → Session → γ → Prop}

/-- The session in which a workbook is bound again, with nothing in its caches. -/
def rebound (w : ActiveWorkbook) (s : Session) : Session :=
  bound w { s with caches := s.caches.reset w.signature }

/-- Without a workbook before, a session that fails to turn has none. -/
theorem achieves_recover_none (turned : Bool)
    (h : post (.ok e) (released { s with phase := .rollingBack }) g) :
    Achieves rely (recover none turned e) s g post := by
  refine achieves_tryCatch.mpr (achieves_bind.mpr ?_)
  refine achieves_bind.mpr ((achieves_modify _).mpr ?_)
  exact achieves_returnToIdle.mpr ((achieves_pure e).mpr h)

/-- When the store did not turn, the workbook before is bound again. -/
theorem achieves_recover_unturned {w : ActiveWorkbook}
    (h : post (.ok e) (rebound w { s with phase := .rollingBack }) g) :
    Achieves rely (recover (some w) false e) s g post := by
  refine achieves_tryCatch.mpr (achieves_bind.mpr ?_)
  refine achieves_bind.mpr ((achieves_modify _).mpr ?_)
  refine achieves_bind.mpr ((achieves_setScope _).mpr ?_)
  exact (achieves_bound w).mpr ((achieves_pure e).mpr h)

/-- When the store turned, it is to turn back before the workbook before is bound again. -/
theorem achieves_recover_turned {w : ActiveWorkbook}
    (h : Achieves rely (restoreStore w) { s with phase := .rollingBack } g fun
      | .ok (), t, i => post (.ok e) (rebound w t) i
      | .error e', t, i => post (.ok (.restoreFailed e e')) t.released i) :
    Achieves rely (recover (some w) true e) s g post := by
  refine achieves_tryCatch.mpr (achieves_bind.mpr ?_)
  refine achieves_bind.mpr ((achieves_modify _).mpr ?_)
  -- the restore may fail itself; its own error is then told along with the first one
  refine achieves_bind.mpr (achieves_tryCatch.mpr (h.imp fun r t i ht => ?_))
  cases r with
  | ok =>
    refine achieves_bind.mpr ((achieves_setScope _).mpr ?_)
    exact (achieves_bound w).mpr ((achieves_pure e).mpr ht)
  | error e' =>
    refine achieves_bind.mpr (achieves_returnToIdle.mpr ((achieves_throw e').mpr ?_))
    exact (achieves_pure _).mpr ht

end Recover

/-! ## Where a change ends -/

section Ends

theorem wired_bound (h : s.Wired) (hsync : s.sync = none) (w : ActiveWorkbook) :
    (s.bound w).Wired where
  document := h.document.subscribe
  forwards := by
    show (s.document.subscribe .forward).2.forwards = [s.document.nextListener]
    rw [Document.forwards_subscribe, h.forwards, hsync]
    rfl
  plain := h.plain
  idle hnone := by cases hnone

theorem isStable_bound (s : Session) (w : ActiveWorkbook) : (s.bound w).course.IsStable := by
  refine ⟨⟨rfl, ?_⟩, rfl⟩
  show s.hook.map (fun _ => w.id) = if s.hook.isSome then some w.id else none
  cases s.hook <;> rfl

theorem wired_released (h : s.Wired) : s.released.Wired := h.congr rfl rfl rfl

theorem isStable_released (hsync : s.sync = none) : s.released.course.IsStable := by
  refine ⟨⟨?_, rfl⟩, rfl⟩
  show s.sync.isSome = false
  rw [hsync]
  rfl

theorem Apart.atRest_rebound (h : Apart m s) (w : ActiveWorkbook) :
    (s.rebound w).Wired ∧ (s.rebound w).course.IsStable :=
  ⟨wired_bound (h.withCaches (s.caches.reset w.signature)).wired h.sync w, isStable_bound _ w⟩

theorem Apart.atRest_released (h : Apart m s) :
    s.released.Wired ∧ s.released.course.IsStable :=
  ⟨wired_released h.wired, isStable_released h.sync⟩

theorem wired_loaded (h : s.Wired) (content : Snapshot) (caches : WorkbookCaches)
    (tokens : TokenSource) : (s.loaded content caches tokens).Wired :=
  ((h.apply_act (.load content)).apply_act .markSaved).congr rfl rfl rfl

namespace Installed

variable {d : Descriptor} {signature : Signature} {content : Snapshot}

theorem wired (h : Installed d signature content s t) (hs : s.Wired) (hsync : s.sync = none) :
    t.Wired := by
  obtain ⟨id, caches, tokens, -, -, rfl⟩ := h
  have hloaded := wired_loaded hs content caches tokens
  have hbound := wired_bound hloaded hsync { descriptor := d, signature, id }
  exact hbound.congr rfl rfl rfl

theorem pending (h : Installed d signature content s t) (hs : s.Wired) (hsync : s.sync = none) :
    t.toLink.pending = [] := by
  have hload := (hs.apply_act (.load content)).idle hsync
  have hsaved := ((hs.apply_act (.load content)).apply_act .markSaved).idle hsync
  obtain ⟨id, caches, tokens, -, -, rfl⟩ := h
  exact Queue.actions_eq_nil.mpr hsaved

theorem isStable (h : Installed d signature content s t) : t.course.IsStable := by
  obtain ⟨id, caches, tokens, -, -, rfl⟩ := h
  have hbound := isStable_bound (s.loaded content caches tokens) { descriptor := d, signature, id }
  exact ⟨⟨hbound.sync, hbound.hookFor⟩, hbound.phase⟩

end Installed

end Ends

/-! ## The whole change -/

@[simp] theorem store_detached (s : Session) : s.detached.store = s.store := by
  unfold detached
  cases s.sync <;> rfl

theorem Turned.phase {target : Target} {d : Descriptor} (h : Turned target d s t) :
    t.phase = s.phase := by
  rcases h with ⟨b, rfl, -⟩ | ⟨rfl, -⟩ <;> rfl

theorem wired_detached (hs : s.Wired) (hidle : s.isIdle) : s.detached.Wired := by
  refine ⟨?_, ?_, ?_, fun _ => ?_⟩
  · unfold detached
    cases s.sync with
    | none => exact hs.document
    | some id => exact hs.document.unsubscribe id
  · have hforwards := hs.forwards
    unfold detached
    cases hsync : s.sync with
    | none =>
      rw [hsync] at hforwards
      simpa [hsync] using hforwards
    | some id =>
      rw [hsync] at hforwards
      simp [Link.stopSync, Document.forwards_unsubscribe, hforwards]
  · unfold detached
    cases s.sync with
    | none => exact hs.plain
    | some id => exact hs.plain
  · have hwaiting := Queue.isIdle_iff.mp hidle
    unfold detached
    cases s.sync with
    | none => exact hwaiting
    | some id => exact hwaiting

/-- A session with nothing left to write is taken apart from its workbook. -/
theorem Apart.start (hm : m.Wired) (hidle : m.isIdle) (store : Store) :
    Apart m { detached { m with phase := .closing } with store } := by
  have hclosing : ({ m with phase := .closing } : Session).Wired := hm.congr rfl rfl rfl
  exact ⟨(wired_detached hclosing hidle).congr rfl rfl rfl, rfl, rfl, rfl, Nat.le_refl _⟩

/-- A store that is to turn to a target in a state `m` may refuse with an error. -/
def RefusedTurn (may : Session → Event → Prop) (target : Target) (m : Session) (M : Ledger)
    (e : SyncError) : Prop :=
  ∃ t K, Activity.Runs (Rely may) (turnStore target).run (detached { m with phase := .closing }) M
    (.error e) t K

/-- The stages of a change of workbook. `I` is what is known until the store has turned, and `I'`
what is known from then on until the content is loaded or the change fails. -/
theorem achieves_swap {target : Target} {previous : Option ActiveWorkbook}
    (hphase : m.phase = .draining ∨ m.phase = .beforeClose)
    (I : Session → Ledger → Prop) (I' : Descriptor → Session → Ledger → Prop)
    (C : Descriptor → Except SyncError Snapshot → Session → Prop)
    {loggable loggable' : Call → Prop}
    {post : Except SyncError Reply → Session → Ledger → Prop}
    (hI : SurvivesSwap may loggable I)
    (hstart : I { detached { m with phase := .closing } with
      store := m.store.logged target.call } M)
    (hunturned : ∀ fault t K, RefusedTurn may target m M (.store fault) → I t K →
      Achieves (Rely may) (recover previous false (.store fault)) t K fun r u M =>
        ∃ e, r = .ok e ∧ post (.error e) u M)
    (hturned : ∀ d s t K, I s K → Turned target d s t → I' d t K)
    (hI' : ∀ d, SurvivesSwap may loggable' (I' d)) (hcall : ∀ path, loggable' (.statFile path))
    (hload : ∀ d t K, I' d t K → t.phase = .loading →
      Achieves (Rely may) (loadContent d) t K fun r u M =>
        (I' d u M ∧ u.phase = .loading) ∧ C d r u)
    (hfailed : ∀ d e t K, I' d t K → C d (.error e) t →
      Achieves (Rely may) (recover previous true e) t K fun r u M =>
        ∃ e', r = .ok e' ∧ post (.error e') u M)
    (hinstall : ∀ d t K content u, I' d t K → C d (.ok content) t →
      (∃ signature, (KeepsScopes may → t.caches.IsFor signature) ∧
        Installed d signature content t u) → post (.ok (.completed d)) u K) :
    Achieves (Rely may) (swap target previous) m M post := by
  have hpermits : m.phase.Permits .closing := by
    rcases hphase with hphase | hphase <;> rw [hphase] <;> decide
  refine achieves_bind.mpr ((achieves_advance hpermits).mpr ?_)
  refine achieves_bind.mpr (achieves_detach.mpr ?_)
  have hclosing : (detached { m with phase := .closing }).phase = .closing := rfl
  have hstore := store_detached { m with phase := .closing }
  -- what follows depends on the session only, but a refusal is to be told with its run
  have hrefused : ∀ {e t K}, Activity.Runs (Rely may) (turnStore target).run
      (detached { m with phase := .closing }) M (.error e) t K → RefusedTurn may target m M e :=
    fun h => ⟨_, _, h⟩
  generalize detached { m with phase := .closing } = s at hstart hclosing hstore hrefused ⊢
  rw [show m.store = s.store from hstore.symm] at hstart
  refine achieves_bind.mpr (achieves_tryCatch.mpr (Achieves.imp
    (achieves_turnStore (hI.lasting_phase .closing) ⟨hstart, hclosing⟩).and_runs ?_))
  rintro (e | d) t K ⟨ht, hruns⟩
  · obtain ⟨ht, fault, rfl⟩ := ht
    refine achieves_bind.mpr ((hunturned fault t K (hrefused hruns) ht.1).imp ?_)
    rintro _ u M ⟨e', rfl, hu⟩
    exact (achieves_throw e').mpr hu
  obtain ⟨u, ⟨hu, hclosing⟩, hturn⟩ := ht
  have ht := hturned d u t K hu hturn
  have hphase := hturn.phase.trans hclosing
  refine achieves_bind.mpr (achieves_tryCatch.mpr
    (achieves_loadTarget (hI' d) hcall hphase ht (hload d) ?_ ?_))
  · intro e v N hv hC
    refine achieves_bind.mpr ((hfailed d e v N hv hC).imp ?_)
    rintro _ w P ⟨e', rfl, hw⟩
    exact (achieves_throw e').mpr hw
  · intro v N content w hv hC hw
    exact (achieves_pure _).mpr (hinstall d v N content w hv hC hw)

/-- However a change of workbook ends, the session is active with a workbook that is bound to it, or
idle without one. -/
theorem achieves_swap_isStable {target : Target} (hm : m.Wired) (hidle : m.isIdle)
    (hphase : m.phase = .draining ∨ m.phase = .beforeClose) (previous : Option ActiveWorkbook) :
    Achieves (Rely may) (swap target previous) m M fun _ t _ => t.Wired ∧ t.course.IsStable := by
  have hI : SurvivesSwap may (fun _ => True) fun s _ => Apart m s := .apart m
  refine achieves_swap hphase (fun s _ => Apart m s) (fun _ s _ => Apart m s)
    (fun _ r _ => AnyContent r) hI (.start hm hidle _) ?_ ?_ (fun _ => hI) (fun _ => trivial) ?_ ?_ ?_
  · intro fault s L _ hs
    have hs := hs.withPhase (p := .rollingBack) rfl
    cases previous with
    | none => exact achieves_recover_none false ⟨_, rfl, hs.atRest_released⟩
    | some w => exact achieves_recover_unturned ⟨_, rfl, hs.atRest_rebound w⟩
  · rintro d s _ L hs (⟨b, rfl, -⟩ | ⟨rfl, -⟩)
    · exact hs.withStore _
    · exact hs
  · intro d s L hs hloading
    exact achieves_loadContent hI (fun _ _ => trivial) hs hloading
  · intro d e s L hs _
    have hs := hs.withPhase (p := .rollingBack) rfl
    cases previous with
    | none => exact achieves_recover_none true ⟨_, rfl, hs.atRest_released⟩
    | some w =>
      refine achieves_recover_turned (Achieves.imp (achieves_restoreStore hI ?_ ?_ ?_
        (hs.withStore _)) ?_)
      · exact fun b hs => hs.withStore _
      · exact fun _ => trivial
      · exact fun _ _ => trivial
      · rintro (e' | _) t K ht
        · exact ⟨_, rfl, ht.atRest_released⟩
        · exact ⟨_, rfl, ht.atRest_rebound w⟩
  · rintro d s L content t hs - ⟨signature, -, ht⟩
    exact ⟨ht.wired hs.wired hs.sync, ht.isStable⟩

end Session

end SheetSync
