import SheetSync.Proofs.Cache.Workbook
import SheetSync.Proofs.Session.Opening
import SheetSync.Proofs.Store.Reopen
/-!
What the caches hold once a change of workbook has succeeded. They are scoped anew when the
signature of the new workbook is known, and from then on until it is bound the session does not wait
for anything, so nobody comes between the scope and what is filled in under it. Caches that keep
their entries under signature and key may still hold some from before under that very signature, but
they are cleared of them then, and serve the same. Main statement: `caches_serve_completed`.
-/
namespace SheetSync

namespace WorkbookCaches

variable {c : WorkbookCaches} {s other : Signature}

/-- Whether caches serve one signature with some names and tables, the last one of a key counting,
and refuse every other signature. -/
structure Serves (c : WorkbookCaches) (s : Signature) (names : List DefinedName)
    (tables : List Table) : Prop where
  isFor : c.IsFor s
  names : ∀ key, c.names.get? s key = names.findRev? (·.key = key)
  tables : ∀ name, c.tables.get? s name = tables.findRev? (·.name = name)
  refuses : ∀ other, other ≠ s → c.names.Refuses other ∧ c.tables.Refuses other ∧
    ∀ names tables, c.populate other names tables = (c, .error ⟨some s, other⟩)

theorem IsFor.refuses (h : c.IsFor s) (hne : other ≠ s) :
    c.names.Refuses other ∧ c.tables.Refuses other ∧
      ∀ names tables, c.populate other names tables = (c, .error ⟨some s, other⟩) := by
  have hscope : some s ≠ some other := fun heq => hne (Option.some.inj heq).symm
  have hnames : c.names.Refuses other := ScopedCache.refuses_of_ne (by rw [h.names]; exact hscope)
  have htables : c.tables.Refuses other :=
    ScopedCache.refuses_of_ne (by rw [h.tables]; exact hscope)
  refine ⟨hnames, htables, fun names tables => ?_⟩
  rw [populate_of_ne (by rw [h.names]; exact hscope), h.names]

/-- Caches that are scoped anew and then filled serve what they are filled with, whatever they held
before. -/
theorem serves_populate (c : WorkbookCaches) (s : Signature) (names : List DefinedName)
    (tables : List Table) : ((c.reset s).populate s names tables).1.Serves s names tables := by
  have hfor := c.isFor_reset s
  have hfilled := hfor.populate s names tables
  refine ⟨hfilled, fun key => ?_, fun name => ?_, fun _ hne => hfilled.refuses hne⟩
  · rw [populate_of_scope hfor.names hfor.tables, ScopedCache.get?_act_merge hfor.names, if_pos rfl,
      findRev?_nameEntries, ScopedCache.get?_of_scope hfor.names]
    exact Option.or_none
  · rw [populate_of_scope hfor.names hfor.tables, ScopedCache.get?_act_merge hfor.tables,
      if_pos rfl, findRev?_tableEntries, ScopedCache.get?_of_scope hfor.tables]
    exact Option.or_none

end WorkbookCaches

namespace Session

open ScopedCache (Epochs)

variable {may : Session → Event → Prop} {s t m : Session} {L K M : Ledger}

/-- Whether a session has a workbook to whose signature its caches were scoped anew, and under which
they were filled with what the store lists. -/
def HasRefilled (s : Session) : Prop := ∃ w, s.active = some w ∧ ∃ c : WorkbookCaches, s.caches =
  ((c.reset w.signature).populate w.signature s.store.listedNames s.store.listedTables).1

/-- A session does not wait for anything while it reads content, so nothing but the log changes. -/
theorem achieves_loadContent_still {γ : Type} {rely : Pause → Session → γ → Session → γ → Prop}
    {g : γ} (d : Descriptor) :
    Achieves rely (loadContent d) s g fun _ t _ =>
      ∃ watch, t = { s with store := { s.store with watch } } := by
  have hreadable : Readable (fun _ => True) fun t (_ : γ) =>
      ∃ watch, t = { s with store := { s.store with watch } } :=
    { log := by
        rintro _ _ call - ⟨watch, rfl⟩
        exact ⟨_, rfl⟩
      spend := by
        rintro _ _ ⟨watch, rfl⟩
        exact ⟨_, rfl⟩ }
  refine achieves_bind.mpr (achieves_get.mpr ?_)
  exact (hreadable.loadSnapshot (fun _ _ => trivial) d _ _).keeps s g ⟨s.store.watch, rfl⟩

/-- What is installed under a new scope fills the caches. -/
theorem Installed.hasRefilled {d : Descriptor} {signature : Signature} {content : Snapshot}
    {c : WorkbookCaches} (h : Installed d signature content s t)
    (hcaches : s.caches = c.reset signature) : t.HasRefilled := by
  obtain ⟨id, _, tokens, -, rfl, rfl⟩ := h
  refine ⟨_, rfl, c, ?_⟩
  show s.filled signature = ((c.reset signature).populate signature
    ((s.store.logged .listNames).logged .listTables).listedNames
    ((s.store.logged .listNames).logged .listTables).listedTables).1
  rw [filled, hcaches, Store.listedNames_logged, Store.listedNames_logged,
    Store.listedTables_logged, Store.listedTables_logged]

/-- Nobody but the session changes its phase. -/
theorem lasting_at (p : Phase) :
    Lasting (Rely may) (fun _ => True) fun s (_ : Ledger) => s.phase = p where
  rely hk hs := (congrArg Course.phase (course_of_meanwhile hk.1)).trans hs
  log _ hs := hs
  spend hs := hs

/-- When the workbook of the store is loaded, the caches are filled for it. -/
theorem achieves_loadTarget_refills {d : Descriptor} (hphase : s.phase = .closing) :
    Achieves (Rely may) (loadTarget d) s L fun r t _ => r = .ok () → t.HasRefilled := by
  -- the signature may take a while, and the caches may be changed by others until it is known
  have hclosing : Lasting (Rely may) _ _ := lasting_at .closing
  refine achieves_bind.mpr (achieves_newToken.mpr (achieves_bind.mpr (achieves_command.mpr ?_)))
  refine Commands.imp (hclosing.signature (fun _ => trivial) d s.tokens.token hphase) ?_
  rintro _ t K ⟨ht, signature, rfl⟩
  refine achieves_bind.mpr ((achieves_setScope signature).mpr ?_)
  have hpermits : t.phase.Permits .loading := by rw [ht]; decide
  refine achieves_bind.mpr
    ((achieves_advance (s := { t with caches := t.caches.reset signature }) hpermits).mpr ?_)
  refine achieves_bind.mpr ((achieves_loadContent_still d).imp ?_)
  rintro (e | content) _ M ⟨watch, rfl⟩
  · rintro ⟨⟩
  · exact achieves_install rfl fun u hu _ => hu.hasRefilled rfl

/-- A change of workbook that is completed has loaded the workbook of the store. -/
theorem achieves_swap_refills {target : Target} {previous : Option ActiveWorkbook}
    (hphase : m.phase = .draining ∨ m.phase = .beforeClose) :
    Achieves (Rely may) (swap target previous) m M fun r t _ =>
      ∀ d, r = .ok (.completed d) → t.HasRefilled := by
  have hpermits : m.phase.Permits .closing := by
    rcases hphase with hphase | hphase <;> rw [hphase] <;> decide
  -- a stage that fails ends the change with an error, however the session recovers
  have hfails : ∀ {α : Type} (turned : Bool) (e : SyncError) (t : Session) (K : Ledger)
      {post : Except SyncError α → Session → Ledger → Prop},
      (∀ e u N, post (.error e) u N) → Achieves (Rely may)
        (do throw (← recover previous turned e) : SessionM α) t K post := by
    intro α turned e t K post hpost
    refine achieves_bind.mpr fun r u N _ => ?_
    cases r with
    | ok e' => exact (achieves_throw e').mpr (hpost e' u N)
    | error e' => exact hpost e' u N
  refine achieves_bind.mpr ((achieves_advance hpermits).mpr ?_)
  refine achieves_bind.mpr (achieves_detach.mpr ?_)
  refine achieves_bind.mpr (achieves_tryCatch.mpr
    ((achieves_turnStore (lasting_at .closing) rfl).imp ?_))
  rintro (e | d) t K ht
  · exact hfails false e t K fun e u N d hd => by cases hd
  obtain ⟨u, hu, hturn⟩ := ht
  refine achieves_bind.mpr (achieves_tryCatch.mpr
    ((achieves_loadTarget_refills (hturn.phase.trans hu)).imp ?_))
  rintro (e | _) v N hv
  · exact hfails true e v N fun e u N d hd => by cases hd
  · exact (achieves_pure _).mpr fun _ _ => hv rfl

/-- Right after a change of workbook that is completed, in any run of a session, both caches serve
the signature of the workbook that is active then: under each key the last name or table of the key
that the store lists, and nothing else, whatever was cached before. Every other signature is
refused. Caches that keep their entries under signature and key, in any maps that can be relied on,
and that are scoped anew and filled like this, answer the same, whatever they hold from before. -/
theorem caches_serve_completed {s₀ : Session} (hnew : s₀.IsNew) (hrun : Run may s₀ s L)
    {target : Target} {d : Descriptor}
    (h : Activity.Runs (Rely may) (request (.switch target)).run s L (.ok (.completed d)) t K) :
    ∃ w, t.active = some w ∧
      t.caches.Serves w.signature t.store.listedNames t.store.listedTables ∧
      ∀ {μ ν : Type} {M : EntryMap μ DefinedName} {N : EntryMap ν Table}, M.IsMap → N.IsMap →
        ∀ c : SignedCaches μ ν, ((c.act M N (.reset w.signature)).act M N (.populate w.signature
          t.store.listedNames t.store.listedTables)).Agrees M N t.caches := by
  have hs := hrun.atRest hnew.atRest
  rcases exists_turnsAt hs.isBusy hs.stable.phase_eq h with ⟨⟨⟩, -⟩ | ⟨m, M, hturn⟩
  obtain ⟨-, hphase, -⟩ := hturn.closing survivesClosing_wired fun prompts =>
    hs.wired.congr rfl rfl rfl
  obtain ⟨u, hu, rfl⟩ := hturn.ends (achieves_swap_refills hphase)
  obtain ⟨w, hactive, c₀, hcaches⟩ := hu d rfl
  refine ⟨w, hactive, ?_, fun hM hN c => ?_⟩
  · show u.caches.Serves _ _ _
    rw [hcaches]
    exact c₀.serves_populate w.signature _ _
  · show SignedCaches.Agrees _ _ _ u.caches
    rw [hcaches]
    exact c.agrees_refilled hM hN c₀ w.signature _ _

/-- A new session in whose caches somebody has put a name, under the signature that its first
workbook is going to have. -/
def stale : Session :=
  { Session.on {} with caches :=
    ⟨⟨some ⟨TokenSource.token {}⟩, [("rate", { name := "rate", refersTo := "Sheet1!A1" })]⟩, {}⟩ }

/-- A file without sheets in which one name is defined twice. -/
def namesFile : WorkbookFile where
  sheets := []
  names := [{ name := "rate", refersTo := "Sheet1!A1" },
    { name := "rate", refersTo := "Sheet1!B1" }]

/-- A store in whose files there is nothing but this file. -/
def namesStore : Store := { files := FileTree.put {} ["book"] (.file (.text namesFile.text) 0) }

theorem canOpen_namesStore : namesStore.CanOpen "book" (namesFile.toWorkbook "book") := by
  obtain ⟨time, hread⟩ := FileTree.read_of_replace (Store.run_replace_book (.text namesFile.text))
  have hproper : namesFile.IsProper := ⟨fun _ h => (by cases h), fun _ h => (by cases h)⟩
  exact ⟨rfl, rfl, _, time, namesFile, hread,
    hproper.ofContent?_text (fun _ h => by cases h) (by decide), rfl⟩

theorem caches_serve_completed_over_stale :
    (∃ t K d w, t.active = some w ∧ stale.caches.names.get? w.signature "rate" ≠ none ∧
      Activity.Runs (Rely fun _ _ => True) (request (.switch .blank)).run stale {}
        (.ok (.completed d)) t K ∧
      t.caches.Serves w.signature t.store.listedNames t.store.listedTables ∧
      t.caches.names.get? w.signature "rate" = none) ∧
    ∃ t K d w, t.active = some w ∧
      Activity.Runs (Rely fun _ e => e.SparesStore) (request (.switch (.file "book"))).run
        (.on namesStore) {} (.ok (.completed d)) t K ∧
      t.caches.names.get? w.signature "rate" =
        some { name := "rate", refersTo := "Sheet1!B1" } ∧
      ∀ c : SignedCaches (Epochs DefinedName) (Epochs Table),
        ((c.act Epochs.map Epochs.map (.reset w.signature)).act Epochs.map Epochs.map (.populate
          w.signature t.store.listedNames t.store.listedTables)).names.get? Epochs.map w.signature
            "rate" = some { name := "rate", refersTo := "Sheet1!B1" } := by
  constructor
  · have hends : ((request (.switch .blank)).run stale).end?.any fun end_ =>
        isCompleted end_.1 && end_.2.store.listedNames == [] && end_.2.active.any fun w =>
          (stale.caches.names.get? w.signature "rate").isSome := by
      decide +kernel
    obtain ⟨⟨r, t⟩, ht, hends⟩ := (Option.any_eq_true _ _).mp hends
    obtain ⟨hreply, hactive⟩ := Bool.and_eq_true_iff.mp hends
    obtain ⟨hreply, hnames⟩ := Bool.and_eq_true_iff.mp hreply
    obtain ⟨w, hw, hcached⟩ := (Option.any_eq_true _ _).mp hactive
    obtain ⟨d, rfl⟩ := exists_of_isCompleted hreply
    have hrun : Activity.Runs (Rely fun _ _ => True) (request (.switch .blank)).run stale {}
        (.ok (.completed d)) t {} := Progress.runs_of_end? ht
    obtain ⟨v, hv, hserves, -⟩ := caches_serve_completed ⟨_, rfl, rfl⟩ .start hrun
    obtain rfl := Option.some.inj (hv.symm.trans hw)
    refine ⟨t, _, d, v, hv, Option.isSome_iff_ne_none.mp hcached, hrun, hserves, ?_⟩
    rw [hserves.names, show t.store.listedNames = [] from eq_of_beq hnames]
    rfl
  · have hmay : ∀ (_ : Session) (e : Event), e.SparesStore → e.SparesStore := fun _ _ he => he
    obtain ⟨t, K, hrun, hb⟩ := exists_opened (L := {}) hmay (fun _ => trivial)
      (isNew_on namesStore).atRest rfl canOpen_namesStore (by decide)
    obtain ⟨w, hw, hserves, hagrees⟩ := caches_serve_completed (isNew_on _) .start hrun
    have hget : t.caches.names.get? w.signature "rate" =
        some { name := "rate", refersTo := "Sheet1!B1" } := by
      rw [hserves.names, hb.listedNames]
      decide
    refine ⟨t, K, _, w, hw, hrun, hget, fun c => ?_⟩
    exact ((hagrees Epochs.isMap Epochs.isMap c).names.get? _ _).trans hget

end Session

end SheetSync
