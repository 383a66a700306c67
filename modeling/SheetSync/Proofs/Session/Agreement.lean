import SheetSync.Proofs.Session.Lockstep
import SheetSync.Proofs.Session.Transfer
import SheetSync.Proofs.Store.ByBook
/-!
Requests of two sessions of one gist. A request that turns a store, loads or saves a workbook reads
the store only once nothing waits for it, so both sessions find the same: they answer alike, and are
of one gist again. Main statement: `lockstep_request`.
-/
namespace SheetSync

namespace Session

variable {α : Type} {s t : Session} {x : Option Nat} {K : Session → Session → Prop}

/-! ## Commands -/

theorem Level.workbook (h : Level x s t) : s.store.workbook = t.store.workbook := by
  rw [← Link.outcome_of_idle (Queue.isIdle_iff.mp h.leftIdle),
    ← Link.outcome_of_idle (Queue.isIdle_iff.mp h.rightIdle)]
  exact congrArg Gist.workbook h.gist

/-- The same workbook put into both stores. -/
theorem Level.withWorkbook (h : Level x s t) (workbook : Option Workbook) :
    Level x { s with store := { s.store with workbook } }
      { t with store := { t.store with workbook } } := by
  refine ⟨⟨⟨h.left.wired.congr rfl rfl rfl, h.left.kind, h.left.watch⟩,
    ⟨h.right.wired.congr rfl rfl rfl, h.right.kind, h.right.watch⟩, ?_, h.sync⟩,
    h.leftIdle, h.rightIdle⟩
  have hs : ({ s with store := { s.store with workbook } } : Session).toLink.outcome = workbook :=
    Link.outcome_of_idle (Queue.isIdle_iff.mp h.leftIdle)
  have ht : ({ t with store := { t.store with workbook } } : Session).toLink.outcome = workbook :=
    Link.outcome_of_idle (Queue.isIdle_iff.mp h.rightIdle)
  rw [Session.gist, Session.gist, hs, ht]
  exact congrArg (fun g : Gist => { g with workbook }) h.gist

theorem lockstep_command {m : StoreM α} (hm : Store.ByBook m) :
    Lockstep (Level x) (command m) (command m) Eq (Level x) (Level x) := by
  obtain ⟨F, hF⟩ := hm
  have hrun : ∀ s : Session, s.Local → onStore m.run s = .done (F s.store.workbook).1
      { s with store := { s.store with workbook := (F s.store.workbook).2 } } := by
    intro s hs
    rw [onStore, Activity.zoom, hF s.store hs.kind hs.watch]
    rfl
  intro s t h
  refine achieves_command.mpr ((Activity.ensures_of_done (hrun s h.left)).mpr ?_)
  refine achieves_command.mpr ((Activity.ensures_of_done (hrun t h.right)).mpr ?_)
  rw [h.workbook]
  have hlevel := h.withWorkbook (F t.store.workbook).2
  cases (F t.store.workbook).1 with
  | error e => exact ⟨rfl, hlevel⟩
  | ok a => exact ⟨rfl, hlevel⟩

theorem Lockstep.of_level {m n : SessionM α} {R : α → α → Prop}
    (h : Lockstep (Level none) m n R (Level none) (Level none)) :
    Lockstep (Alike none) m n R (Alike none) (Alike none) :=
  fun s t hst => (h.imp (fun h => h.toAlike) fun h => h.toAlike) s t hst.level

theorem Alike.read (h : Alike x s t) (path : String) :
    (s.store.files.read path).map Prod.fst = (t.store.files.read path).map Prod.fst :=
  FileTree.read_congr (congrArg Gist.files h.gist) path

theorem lockstep_turnStore (target : Target) :
    Lockstep (Alike none) (turnStore target) (turnStore target) Eq (Alike none) (Alike none) := by
  cases target with
  | blank => exact .of_level (lockstep_command .newWorkbook)
  | file path =>
    intro s t h
    refine achieves_command.mpr
      ((commands_openWorkbook h.left.kind h.left.watch path).mpr fun u _ hu => ?_)
    cases hfound : WorkbookFile.found path ((u.store.files.read path).map Prod.fst) with
    | error e =>
      refine achieves_command.mpr
        ((commands_openWorkbook h.right.kind h.right.watch path).mpr fun v _ hv => ?_)
      have huv := h.paced hu hv
      rw [← huv.read path, hfound]
      exact ⟨rfl, huv⟩
    | ok b =>
      refine achieves_command.mpr
        ((commands_openWorkbook h.right.kind h.right.watch path).mpr fun v _ hv => ?_)
      have huv := h.paced hu hv
      rw [← huv.read path, hfound]
      exact ⟨rfl, (huv.level.withWorkbook (some b)).toAlike⟩

/-! ## Loading -/

theorem lockstep_fillCaches (signature signature' : Signature) :
    Lockstep (Alike x) (fillCaches signature) (fillCaches signature') Eq (Alike x) K := by
  have hfill : ∀ (signature : Signature) (s : Session), s.Local →
      Achieves Paced (fillCaches signature) s () fun r u _ =>
        r = .ok () ∧ ∃ caches, u = { s with caches } := by
    intro signature s hs
    refine (achieves_fillCaches signature).mpr ⟨rfl, s.filled signature, ?_⟩
    rw [Store.logged_of_watch_eq_none _ hs.watch, Store.logged_of_watch_eq_none _ hs.watch]
  refine .of_achieves (fun s _ h => hfill signature s h.left)
    (fun _ t h => hfill signature' t h.right) ?_
  rintro s t _ _ _ _ h ⟨rfl, caches, rfl⟩ ⟨rfl, caches', rfl⟩
  exact ⟨rfl, h.congr ⟨rfl, rfl⟩ ⟨rfl, rfl⟩ h.gist⟩

theorem lockstep_identify (d : Descriptor) :
    Lockstep (Alike x) (identify d) (identify d) (fun _ _ => True) (Alike x) K := by
  unfold identify
  split
  · exact .pure trivial
  · exact lockstep_newToken.bind fun _ _ _ => .pure trivial

/-- A signature can be had of every workbook, and nothing else comes of it. -/
theorem achieves_signature (h : s.Local) (d : Descriptor) (token : String) :
    Achieves Paced (command (Store.signature d token)) s () fun r u _ =>
      (∃ signature, r = .ok signature) ∧ ∃ n, u = carried n s := by
  refine achieves_command.mpr ?_
  unfold Store.signature
  split
  · exact (commands_pure _).mpr ⟨⟨_, rfl⟩, 0, rfl⟩
  · next path _ =>
    refine commands_tryCatch.mpr (commands_bind.mpr ?_)
    simp only [Store.statFile, Store.switches, commands_bind, commands_log h.watch, commands_get,
      h.watch, commands_pure, Option.getD_none, h.kind, commands_pause]
    intro u _ hu
    obtain ⟨n, rfl⟩ := h.carries hu
    -- a file that cannot be looked at gives a signature too
    rcases (carried n s).store.files.state path with fault | ⟨time, size⟩
    · exact (commands_throw _).mpr ⟨⟨_, rfl⟩, n, rfl⟩
    · exact (commands_pure _).mpr ⟨⟨_, rfl⟩, n, rfl⟩

theorem lockstep_signature (d : Descriptor) (token token' : String) :
    Lockstep (Alike x) (command (Store.signature d token)) (command (Store.signature d token'))
      (fun _ _ => True) (Alike x) K := by
  refine .of_achieves (fun s _ h => achieves_signature h.left d token)
    (fun _ t h => achieves_signature h.right d token') ?_
  rintro s t _ _ _ _ h ⟨⟨a, rfl⟩, i, rfl⟩ ⟨⟨b, rfl⟩, j, rfl⟩
  exact ⟨trivial, h.carried i j⟩

theorem Alike.chunks (h : Alike x s t) :
    s.config.chunkRows = t.config.chunkRows ∧ s.config.chunkCols = t.config.chunkCols :=
  ⟨congrArg (fun g : Gist => g.config.chunkRows) h.gist,
    congrArg (fun g : Gist => g.config.chunkCols) h.gist⟩

theorem lockstep_loadContent (d : Descriptor) :
    Lockstep (Alike none) (loadContent d) (loadContent d) Eq (Alike none) (Alike none) := by
  intro s t h
  refine pairs_get.mpr ?_
  dsimp only
  rw [h.chunks.1, h.chunks.2]
  exact Lockstep.of_level (lockstep_command (.loadSnapshot _ _ _)) s t h

/-- Each binds the workbook under an identity of its own. -/
theorem lockstep_bind {w w' : ActiveWorkbook} (hsame : w.descriptor = w'.descriptor) :
    Lockstep (Alike none) (Session.bind w) (Session.bind w') Eq Likes K := by
  refine .modify fun s t h => ⟨_, ⟨wired_bound h.left.wired h.sync w, h.left.kind, h.left.watch⟩,
    ⟨wired_bound h.right.wired h.symm.sync w', h.right.kind, h.right.watch⟩, ?_, rfl⟩
  have hbound : ∀ (w : ActiveWorkbook) (s : Session), (s.bound w).gist =
      { s.gist with
        document := (s.gist.document.subscribe .forward).2
        sync := some s.gist.document.nextListener
        hookFor := s.gist.hook.map fun _ => true
        active := some w.descriptor
        phase := .active } := by
    intro w s
    have hinstalled : ((s.hook.map fun _ => w.id).map fun id =>
        (some w).any fun v => v.id == id) = s.gist.hook.map fun _ => true := by
      simp [Session.gist, Function.comp_def]
    rw [← hinstalled]
    rfl
  show (s.bound w).gist = (t.bound w').gist
  rw [hbound, hbound, h.gist, hsame]

theorem lockstep_install (d : Descriptor) (signature signature' : Signature) (content : Snapshot) :
    Lockstep (Alike none) (install d signature content) (install d signature' content) Eq Likes
      (Alike none) := by
  refine (lockstep_perform _).bind fun _ _ _ => (lockstep_perform _).bind fun _ _ _ =>
    (lockstep_fillCaches _ _).bind fun _ _ _ => (lockstep_identify d).bind fun id id' _ =>
    (lockstep_advance _).bind fun _ _ _ => ?_
  have hbind : Lockstep (Alike none) (Session.bind { descriptor := d, signature, id })
      (Session.bind { descriptor := d, signature := signature', id := id' }) Eq Likes (Alike none) :=
    lockstep_bind rfl
  exact hbind.bind fun _ _ _ => .likes fun x =>
    (lockstep_restartServices id id').imp (fun h => ⟨x, h⟩) fun h => h

theorem lockstep_loadTarget (d : Descriptor) :
    Lockstep (Alike none) (loadTarget d) (loadTarget d) Eq Likes (Alike none) := by
  refine lockstep_newToken.bind fun token token' _ => (lockstep_signature d _ _).bind
    fun signature signature' _ => (lockstep_setScope _ _).bind fun _ _ _ =>
    (lockstep_advance _).bind fun _ _ _ => (lockstep_loadContent d).bind ?_
  rintro content _ rfl
  exact lockstep_install d signature signature' content

/-! ## Going back -/

theorem lockstep_returnToIdle :
    Lockstep (Alike x) returnToIdle returnToIdle Eq (Alike x) K := by
  refine lockstep_newToken.bind fun _ _ _ => (lockstep_setScope _ _).bind fun _ _ _ =>
    .modify fun s t h => h.congr ⟨rfl, rfl⟩ ⟨rfl, rfl⟩ ?_
  exact congrArg (fun g : Gist => { g with active := none, hookFor := none, phase := .idle }) h.gist

theorem lockstep_restoreStore {w w' : ActiveWorkbook} (hsame : w.descriptor = w'.descriptor) :
    Lockstep (Alike none) (restoreStore w) (restoreStore w') Eq (Alike none) (Alike none) := by
  have hsource : w.source = w'.source := by
    rw [ActiveWorkbook.source, ActiveWorkbook.source, hsame]
  unfold restoreStore
  rw [hsource]
  refine (lockstep_turnStore _).bind ?_
  rintro d _ rfl s t h
  refine pairs_get.mpr ?_
  rw [h.chunks.1, h.chunks.2, h.document]
  exact ((Lockstep.of_level (lockstep_command (.replaySnapshot _ _ _ _))).bind fun _ _ _ =>
    .pure rfl) s t h

theorem lockstep_rollBack {o o' : Option ActiveWorkbook} (hsame : SameBook o o') (turned : Bool) :
    Lockstep (Alike none) (rollBack o turned) (rollBack o' turned) Eq Likes Likes := by
  refine Lockstep.bind (J := Alike none) (.modify fun s t h => h.withPhase _) fun _ _ _ => ?_
  rcases hsame.cases with ⟨rfl, rfl⟩ | ⟨w, w', rfl, rfl, hd⟩
  · exact lockstep_returnToIdle.imp (fun h => ⟨none, h⟩) id
  · have hback : Lockstep (Alike none) (do setScope w.signature; Session.bind w)
        (do setScope w'.signature; Session.bind w') Eq Likes Likes :=
      (lockstep_setScope _ _).bind fun _ _ _ => lockstep_bind hd
    cases turned with
    | false => exact hback
    | true =>
      refine Lockstep.bind (J := Alike none) (Lockstep.tryCatch (lockstep_restoreStore hd) fun e =>
        lockstep_returnToIdle.bind fun _ _ _ => ?_) fun _ _ _ => hback
      exact (Lockstep.throw e).imp id fun h => ⟨none, h⟩

theorem lockstep_recover {o o' : Option ActiveWorkbook} (hsame : SameBook o o') (turned : Bool)
    (e : SyncError) :
    Lockstep (Alike none) (recover o turned e) (recover o' turned e) Eq Likes K :=
  ((lockstep_rollBack hsame turned).bind fun _ _ _ => .pure rfl).tryCatch fun _ => .pure rfl

/-! ## Changing the workbook -/

theorem lockstep_detach : Lockstep (Level x) detach detach Eq (Alike none) K := by
  have hdetached : ∀ s : Session, s.detached.gist =
      { s.gist with
        document := s.gist.sync.elim s.gist.document fun id => s.gist.document.unsubscribe id
        sync := none, hookFor := none } := by
    intro s
    unfold detached Session.gist
    cases s.sync <;> rfl
  have hlocal : ∀ s : Session, s.Local → s.isIdle → s.detached.Local := by
    intro s hs hidle
    refine ⟨wired_detached hs.wired hidle, ?_, ?_⟩
    · rw [store_detached]
      exact hs.kind
    · rw [store_detached]
      exact hs.watch
  refine .modify fun s t h => ⟨hlocal s h.left h.leftIdle, hlocal t h.right h.rightIdle, ?_, rfl⟩
  show s.detached.gist = t.detached.gist
  rw [hdetached, hdetached, h.gist]

/-- A failure from which both sessions go back. -/
theorem lockstep_throw_recover {o o' : Option ActiveWorkbook} (hsame : SameBook o o')
    (turned : Bool) (e : SyncError) {J : Session → Session → Prop} :
    Lockstep (Alike none) (do throw (← recover o turned e) : SessionM α)
      (do throw (← recover o' turned e)) Eq J Likes := by
  refine (lockstep_recover hsame turned e).bind ?_
  rintro e' _ rfl
  exact .throw e'

theorem lockstep_closing :
    Lockstep (Level x) (advance .closing) (advance .closing) Eq (Level x) Likes :=
  (lockstep_advance_of .closing (fun h => h.phase) fun h =>
    ⟨h.withPhase _, h.leftIdle, h.rightIdle⟩).imp id fun h => ⟨_, h.toAlike⟩

theorem lockstep_swap {o o' : Option ActiveWorkbook} (hsame : SameBook o o') (target : Target) :
    Lockstep (Level x) (swap target o) (swap target o') Eq Likes Likes := by
  refine lockstep_closing.bind fun _ _ _ => lockstep_detach.bind fun _ _ _ =>
    ((lockstep_turnStore target).tryCatch fun e => lockstep_throw_recover hsame false e).bind ?_
  rintro d _ rfl
  refine Lockstep.bind (R := Eq) (J := Likes) ?_ fun _ _ _ => .pure rfl
  exact (lockstep_loadTarget d).tryCatch fun e => lockstep_throw_recover hsame true e

theorem lockstep_switch (target : Target) :
    Lockstep (Alike x) (switch target) (switch target) Eq Likes Likes := by
  intro s t h
  refine pairs_get.mpr ?_
  rw [h.phase]
  have hgive : ∀ {u v}, Alike x u v → Likes u v := fun h => ⟨x, h⟩
  refine ((lockstep_advance _).imp id hgive |>.bind fun _ _ _ => lockstep_mayDiscard.bind ?_) s t h
  rintro mayDiscard _ rfl
  cases mayDiscard with
  | true => exact (lockstep_conclude.imp id hgive).bind fun _ _ hsame => lockstep_swap hsame target
  | false => exact ((lockstep_advance _).imp hgive hgive).bind fun _ _ _ => .pure rfl

/-! ## Saving -/

theorem Alike.withFiles (h : Alike x s t) {files files' : FileTree}
    (hfiles : files.untimed = files'.untimed) :
    Alike x { s with store := { s.store with files } }
      { t with store := { t.store with files := files' } } := by
  refine ⟨⟨h.left.wired.congr rfl rfl rfl, h.left.kind, h.left.watch⟩,
    ⟨h.right.wired.congr rfl rfl rfl, h.right.kind, h.right.watch⟩, ?_, h.sync⟩
  show ({ s.gist with files := files.untimed } : Gist) = { t.gist with files := files'.untimed }
  rw [h.gist, hfiles]

theorem Alike.withPath (h : Alike x s t) (path : Option String) :
    Alike x { s with store := { s.store with workbook := s.store.workbook.map ({ · with path }) } }
      { t with store := { t.store with workbook := t.store.workbook.map ({ · with path }) } } := by
  refine ⟨⟨h.left.wired.congr rfl rfl rfl, h.left.kind, h.left.watch⟩,
    ⟨h.right.wired.congr rfl rfl rfl, h.right.kind, h.right.watch⟩, ?_, h.sync⟩
  -- writes that wait come to the same under another path
  have hpath : ∀ s : Session, ({ s with store := { s.store with
      workbook := s.store.workbook.map ({ · with path }) } } : Session).gist =
        { s.gist with workbook := s.gist.workbook.map ({ · with path }) } := by
    intro s
    simp only [Session.gist, Link.outcome, Link.pending, Option.map_map, Function.comp_def,
      Workbook.foldl_after_withPath]
  rw [hpath, hpath, h.gist]

/-- Without a workbook nothing can be saved. -/
theorem commands_saveWorkbook_of_none (h : s.Local) (hbook : s.store.workbook = none) (path : String)
    {γ : Type} {rely : Pause → Session → γ → Session → γ → Prop} {g : γ}
    {post : Except StoreError Unit → Session → γ → Prop} :
    Commands rely (Store.saveWorkbook (some path)) s g post ↔ post (.error .noWorkbook) s g := by
  simp only [Store.saveWorkbook, Store.switches, Store.current, commands_bind, commands_log h.watch,
    commands_get, h.watch, commands_pure, Option.getD_none, Bool.false_eq_true, if_false, h.kind,
    hbook, commands_throw]

theorem lockstep_saveWorkbook (path : String) :
    Lockstep (Level x) (command (Store.saveWorkbook (some path)))
      (command (Store.saveWorkbook (some path))) Eq (Alike x) (Alike x) := by
  intro s t h
  have hbook := h.workbook
  cases hs : s.store.workbook with
  | none =>
    have ht : t.store.workbook = none := hbook.symm.trans hs
    refine achieves_command.mpr ((commands_saveWorkbook_of_none h.left hs path).mpr ?_)
    exact achieves_command.mpr ((commands_saveWorkbook_of_none h.right ht path).mpr ⟨rfl, h.toAlike⟩)
  | some b =>
    have ht : t.store.workbook = some b := hbook.symm.trans hs
    have htimeless := FileTree.isTimeless_replace path (.text (WorkbookFile.ofWorkbook b).text)
    refine achieves_command.mpr ((commands_saveWorkbook ⟨h.left.kind, h.left.watch, hs⟩ path).mpr
      fun u _ hu => ?_)
    rcases hreplace : (FileTree.replace path (.text (WorkbookFile.ofWorkbook b).text)).run
      u.store.files with ⟨fault | _, files⟩
    all_goals
      refine achieves_command.mpr ((commands_saveWorkbook ⟨h.right.kind, h.right.watch, ht⟩ path).mpr
        fun v _ hv => ?_)
      have huv := h.toAlike.paced hu hv
      obtain ⟨files', hreplace', hfiles⟩ :=
        htimeless.exists_run (congrArg Gist.files huv.gist) hreplace
      rw [hreplace']
    · exact ⟨rfl, huv.withFiles hfiles⟩
    · exact ⟨rfl, (huv.withFiles hfiles).withPath (some path)⟩

theorem lockstep_writeOut (path : String) :
    Lockstep (Alike x) (writeOut path) (writeOut path) Eq (Alike x) (Alike x) :=
  lockstep_settle.bind fun _ _ _ => (lockstep_saveWorkbook path).bind fun _ _ _ =>
    lockstep_perform _

theorem lockstep_saving {m n : SessionM Unit}
    (h : Lockstep (Alike x) m n Eq (Alike x) (Alike x)) :
    Lockstep (Alike x) (saving m) (saving n) Eq (Alike x) (Alike x) := by
  have hback := lockstep_advance (x := x) .active
  refine (lockstep_advance _).bind fun _ _ _ => Lockstep.bind (h.tryCatch fun e => ?_)
    fun _ _ _ => hback
  exact (hback.tryCatch fun _ => .pure rfl).bind fun _ _ _ => .throw e

theorem lockstep_rename {w w' : ActiveWorkbook} (hsame : w.descriptor = w'.descriptor)
    (path : String) : Lockstep (Alike x) (rename w path) (rename w' path) Eq (Alike x) K := by
  refine Lockstep.bind (J := Alike x) (.modify fun s t h => ?_) fun _ _ _ =>
    lockstep_restartServices _ _
  refine h.congr ⟨rfl, rfl⟩ ⟨rfl, rfl⟩ ?_
  have hrenamed : ∀ (w : ActiveWorkbook) (s : Session) (refresh : RefreshBook), ({ s with
      refresh, hookFor := s.hookFor.map fun _ => .ofPath path
      active := some { w with
        descriptor := w.descriptor.withPath path, id := .ofPath path } } : Session).gist =
      { s.gist with
        active := some (w.descriptor.withPath path)
        hookFor := s.gist.hookFor.map fun _ => true } := by
    intro w s refresh
    simp only [Session.gist, Option.map_map, Function.comp_def, Option.any_some, beq_self_eq_true,
      Option.map_some]
  rw [hrenamed, hrenamed, h.gist, hsame]

theorem lockstep_activeWorkbook :
    Lockstep (Alike x) activeWorkbook activeWorkbook (fun w w' => w.descriptor = w'.descriptor)
      (Alike x) (Alike x) := by
  intro s t h
  refine pairs_get.mpr ?_
  rcases h.active.cases with ⟨hs, ht⟩ | ⟨w, w', hs, ht, hsame⟩
  · rw [hs, ht]
    exact Lockstep.throw _ s t h
  · rw [hs, ht]
    have hfound : Lockstep (Alike x) (pure w : SessionM ActiveWorkbook) (pure w')
        (fun w w' => w.descriptor = w'.descriptor) (Alike x) (Alike x) := .pure hsame
    exact hfound s t h

theorem lockstep_choosePath : Lockstep (Alike x) choosePath choosePath Eq (Alike x) K := by
  intro s t h
  have hprompts : s.prompts = t.prompts := congrArg Gist.prompts h.gist
  refine pairs_get.mpr ?_
  rw [hprompts]
  exact pairs_set_bind.mpr (Lockstep.pure rfl _ _ (h.withPrompts _))

theorem lockstep_saveUnder {w w' : ActiveWorkbook} (hsame : w.descriptor = w'.descriptor)
    (path : Option String) :
    Lockstep (Alike x) (saveUnder w path) (saveUnder w' path) Eq (Alike x) (Alike x) := by
  have hunder : ∀ p, Lockstep (Alike x)
      (do
        saving do
          writeOut p
          rename w p
        return .saved p : SessionM Reply)
      (do
        saving do
          writeOut p
          rename w' p
        return .saved p) Eq (Alike x) (Alike x) := fun p =>
    (lockstep_saving ((lockstep_writeOut p).bind fun _ _ _ => lockstep_rename hsame p)).bind
      fun _ _ _ => .pure rfl
  cases path with
  | some p => exact hunder p
  | none =>
    refine lockstep_choosePath.bind ?_
    rintro chosen _ rfl
    cases chosen with
    | none => exact .pure rfl
    | some p => exact hunder p

theorem lockstep_save {w w' : ActiveWorkbook} (hsame : w.descriptor = w'.descriptor) :
    Lockstep (Alike x) (save w) (save w') Eq (Alike x) (Alike x) := by
  unfold save
  rw [hsame]
  cases w'.descriptor.savePath? with
  | none => exact lockstep_saveUnder hsame none
  | some path => exact (lockstep_saving (lockstep_writeOut path)).bind fun _ _ _ => .pure rfl

/-! ## Requests -/

/-- Two sessions of one gist, between requests. -/
def Resting (s t : Session) : Prop := Likes s t ∧ s.isBusy = false

theorem lockstep_exclusively {m n : SessionM α}
    (h : ∀ x, Lockstep (Alike x) m n Eq Likes Likes) :
    Lockstep Resting (exclusively m) (exclusively n) Eq Resting Resting := by
  rintro s t ⟨⟨x, hst⟩, hbusy⟩
  have hbusy' : t.isBusy = false := (congrArg Gist.isBusy hst.gist).symm.trans hbusy
  have hfree : ∀ {u v}, Likes u v →
      Resting { u with isBusy := false } { v with isBusy := false } :=
    fun ⟨y, huv⟩ => ⟨⟨y, huv.withBusy false⟩, rfl⟩
  refine (achieves_exclusively hbusy).mpr (Achieves.imp (h x _ _ (hst.withBusy true)) ?_)
  intro r u _ hother
  exact (achieves_exclusively hbusy').mpr (hother.imp fun r' v _ hends => hends.imp hfree hfree)

/-- Whatever is asked for, two sessions of one gist give one answer and are of one gist again,
whenever their writes are carried out. -/
theorem lockstep_request (r : Request) :
    Lockstep Resting (request r) (request r) Eq Resting Resting := by
  have hsave {f : ActiveWorkbook → SessionM Reply}
      (hf : ∀ {x : Option Nat} {w w' : ActiveWorkbook}, w.descriptor = w'.descriptor →
        Lockstep (Alike x) (f w) (f w') Eq (Alike x) (Alike x)) :
      Lockstep Resting (exclusively (activeWorkbook >>= f)) (exclusively (activeWorkbook >>= f))
        Eq Resting Resting :=
    lockstep_exclusively fun x => (lockstep_activeWorkbook.bind fun _ _ hsame => hf hsame).imp
      (fun h => ⟨x, h⟩) fun h => ⟨x, h⟩
  cases r with
  | switch target => exact lockstep_exclusively fun _ => lockstep_switch target
  | save => exact hsave fun hsame => lockstep_save hsame
  | saveAs path => exact hsave fun hsame => lockstep_saveUnder hsame path

end Session

end SheetSync
