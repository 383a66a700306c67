import SheetSync.Proofs.Queue.Turns
import SheetSync.Proofs.Session.Transfer
import SheetSync.Proofs.Session.Rest
/-!
Opening a workbook file. A request always comes to an end when writes can be carried out. While
others leave the store to the session, a file that can be read when a change of workbook is asked
for can be read when the store turns to it, and where chunks are within the limit of the store all
content is loaded: the change is completed. Main statements: `achieves_open` and `exists_opened`.
-/
namespace SheetSync

/-- Whether an event leaves the store to the session and its queue. -/
def Event.SparesStore : Event → Prop
  | .store _ _ _ => False
  | _ => True

/-- A local store that is not watched, and the workbook of the file at a path. -/
structure Store.CanOpen (path : String) (b : Workbook) (s : Store) : Prop where
  kind : s.kind = .local
  watch : s.watch = none
  isAt : b.IsAt path s.files

namespace Session

variable {may : Session → Event → Prop} {s t m : Session} {L K M : Ledger} {path : String}
  {b : Workbook}

/-! ## Ends -/

/-- At every pause something may happen, if writes can be carried out. -/
theorem exists_rely (hcarry : ∀ s, may s .carry) (k : Pause) (s : Session) (L : Ledger) :
    ∃ t K, Rely may k s L t K := by
  obtain ⟨K, hK⟩ := Wired.meanwhile_drain hcarry s L
  exact ⟨_, K, hK, fun _ => Queue.isIdle_iff.mpr (Queue.drain_waiting _ s.queue s.store)⟩

/-- A request comes to an end, if writes can be carried out. -/
theorem exists_runs_request (hcarry : ∀ s, may s .carry) (r : Request) (s : Session) (L : Ledger) :
    ∃ reply t K, Activity.Runs (Rely may) (request r).run s L reply t K :=
  Progress.exists_runs (exists_rely hcarry) _ L

/-! ## Turning to a file -/

theorem canOpen_apply (h : s.store.CanOpen path b) {e : Event} (he : e.SparesStore) :
    (e.apply s).store.CanOpen path b := by
  cases e with
  | act a =>
    show (s.toLink.perform a).store.CanOpen path b
    rw [Link.store_perform]
    exact h
  | carry =>
    show s.toLink.carry.store.CanOpen path b
    rw [Link.store_carry]
    cases s.toLink.pending.head? with
    | none => exact h
    | some w =>
      -- a write changes the workbook at most
      obtain ⟨workbook, hwrite⟩ := Store.exists_perform_apply_eq w s.store
      rw [Store.logged_of_watch_eq_none _ h.watch] at hwrite
      show ((Store.apply w).perform s.store).2.CanOpen path b
      rw [hwrite]
      exact ⟨h.kind, h.watch, h.isAt⟩
  | store workbook files switches => exact he.elim
  | _ => exact h

theorem survives_canOpen (hmay : ∀ u e, may u e → e.SparesStore) :
    Survives may fun s _ => s.store.CanOpen path b :=
  fun s _ e he hs => canOpen_apply hs (hmay s e he)

/-- A store that can open a file does not refuse to turn to it. -/
theorem not_refusedTurn (hmay : ∀ u e, may u e → e.SparesStore) (h : m.store.CanOpen path b)
    {e : SyncError} : ¬ RefusedTurn may (.file path) m M e := by
  rintro ⟨t, K, hruns⟩
  rw [← store_detached { m with phase := .closing }] at h
  have hturns : Achieves (Rely may) (turnStore (.file path)) (detached { m with phase := .closing })
      M fun r _ _ => r = .ok b.descriptor := by
    refine achieves_command.mpr ((commands_openWorkbook h.kind h.watch path).mpr fun u N hk => ?_)
    -- while the file is read, it stays what it is
    have hu : u.store.CanOpen path b := (survives_canOpen hmay).rely hk h
    rw [hu.isAt.found]
    rfl
  cases hturns _ _ _ hruns

/-- What is known of a store that is not watched survives as long as others leave it. -/
theorem survivesSwap_of_store (m : Session) {P : Store → Prop}
    (hevent : ∀ s e, may s e → Apart m s → P s.store → P (e.apply s).store)
    (hwatch : ∀ s, P s → s.watch = none) :
    SurvivesSwap may (fun _ => True) fun s _ => Apart m s ∧ P s.store := by
  refine .and_apart m (fun s _ e => hevent s e) ?_ ?_ id (fun _ => id) id
  · intro s _ call _ hs
    rw [show ({ s with store := s.store.logged call } : Session).store = s.store from
      Store.logged_of_watch_eq_none call (hwatch _ hs)]
    exact hs
  · intro s _ hs
    rw [show ({ s with store := s.store.spent } : Session).store = s.store from
      Store.spent_of_watch_eq_none (hwatch _ hs)]
    exact hs

theorem survivesSwap_canOpen (hmay : ∀ u e, may u e → e.SparesStore) (m : Session) :
    SurvivesSwap may (fun _ => True) fun s _ => Apart m s ∧ s.store.CanOpen path b :=
  survivesSwap_of_store m (fun s e he _ hs => canOpen_apply hs (hmay s e he)) fun _ hs => hs.watch

/-- Nothing waits on the way to a workbook, so the store's workbook stays as it is. -/
theorem survivesSwap_holds (hmay : ∀ u e, may u e → e.SparesStore) (m : Session)
    (d : Descriptor) : SurvivesSwap may (fun _ => True) fun s _ =>
      Apart m s ∧ s.store.Holds b ∧ d = b.descriptor := by
  refine survivesSwap_of_store m (P := fun s => s.Holds b ∧ d = b.descriptor) ?_
    fun _ hs => hs.1.watch
  intro s e he hapart hs
  rcases Event.store_apply hapart.waiting e with hsame | ⟨workbook, files, switches, rfl⟩
  · rw [hsame]
    exact hs
  · exact (hmay s _ he).elim

/-- A change to the workbook of a file that the store can open is completed. -/
theorem achieves_swap_open (hmay : ∀ u e, may u e → e.SparesStore) (hm : m.Wired)
    (hidle : m.isIdle) (hphase : m.phase = .draining ∨ m.phase = .beforeClose)
    (h : m.store.CanOpen path b)
    (hchunk : max m.config.chunkRows 1 * max m.config.chunkCols 1 ≤ rangeLimit)
    (previous : Option ActiveWorkbook) :
    Achieves (Rely may) (swap (.file path) previous) m M fun r t _ =>
      r = .ok (.completed b.descriptor) ∧ t.store.Holds b := by
  refine achieves_swap hphase (fun s _ => Apart m s ∧ s.store.CanOpen path b)
    (fun d s _ => Apart m s ∧ s.store.Holds b ∧ d = b.descriptor)
    (fun _ r _ => ∃ content, r = .ok content) (survivesSwap_canOpen hmay m)
    ⟨.start hm hidle _, ?_⟩ ?_ ?_ (survivesSwap_holds hmay m) (fun _ => trivial) ?_ ?_ ?_
  · rw [Store.logged_of_watch_eq_none _ h.watch]
    exact h
  · exact fun fault t K hrefused _ => (not_refusedTurn hmay h hrefused).elim
  · rintro d s _ K ⟨hapart, hs⟩ (⟨b', rfl, rfl, hgives⟩ | ⟨-, hkind, -⟩)
    · obtain rfl := hs.isAt.unique hgives
      exact ⟨hapart.withStore _, ⟨hs.kind, hs.watch, rfl⟩, rfl⟩
    · exact absurd hs.kind hkind
  · rintro d s K ⟨hapart, hs, rfl⟩ hloading
    have hconfig : s.config = m.config := congrArg Course.config hapart.course
    refine achieves_bind.mpr (achieves_get.mpr (achieves_command.mpr
      (commands_loadSnapshot hs fun r hr => ?_)))
    rw [hr.eq_ok (by rwa [hconfig])]
    exact ⟨⟨⟨hapart, hs, rfl⟩, hloading⟩, _, rfl⟩
  · rintro d e s K - ⟨content, ⟨⟩⟩
  · rintro d s K content t ⟨hapart, hs, rfl⟩ - ⟨signature, -, id, caches, tokens, -, -, rfl⟩
    refine ⟨rfl, ?_⟩
    show Store.Holds ((s.store.logged .listNames).logged .listTables) b
    rw [Store.logged_of_watch_eq_none _ hs.watch, Store.logged_of_watch_eq_none _ hs.watch]
    exact hs

/-- A request to change to the workbook of a file is completed, however it runs, if the store can
open the file, the user agrees, others leave the store alone, and chunks are within its limit. -/
theorem achieves_open (hmay : ∀ u e, may u e → e.SparesStore) (hs : s.AtRest)
    (hgrants : s.grantsDiscard = true) (h : s.store.CanOpen path b)
    (hchunk : max s.config.chunkRows 1 * max s.config.chunkCols 1 ≤ rangeLimit) :
    Achieves (Rely may) (request (.switch (.file path))) s L fun r t _ =>
      r = .ok (.completed b.descriptor) ∧ t.store.Holds b := by
  have hI : SurvivesClosing may fun s _ => s.Wired ∧ s.store.CanOpen path b :=
    { event := fun s _ e he hs => ⟨hs.1.apply e, canOpen_apply hs.2 (hmay s e he)⟩
      phase := fun _ hs => ⟨hs.1.congr rfl rfl rfl, hs.2⟩
      hook := fun _ _ hs => ⟨hs.1.congr rfl rfl rfl, hs.2⟩ }
  refine achieves_switch hs.isBusy hs.stable.phase_eq hgrants (achieves_bind.mpr
    (Achieves.imp (achieves_conclude hI rfl ⟨hs.wired.congr rfl rfl rfl, h⟩) ?_))
  rintro _ m M ⟨rfl, hidle, hphase, hcourse, hm, hcan⟩
  have hconfig : m.config = s.config := congrArg Course.config hcourse
  exact achieves_swap_open hmay hm hidle hphase hcan (by rwa [hconfig]) _

/-- The workbook of a file that the store can open can become the active one. -/
theorem exists_opened (hmay : ∀ u e, may u e → e.SparesStore) (hcarry : ∀ u, may u .carry)
    (hs : s.AtRest) (hgrants : s.grantsDiscard = true) (h : s.store.CanOpen path b)
    (hchunk : max s.config.chunkRows 1 * max s.config.chunkCols 1 ≤ rangeLimit) :
    ∃ t K, Activity.Runs (Rely may) (request (.switch (.file path))).run s L
      (.ok (.completed b.descriptor)) t K ∧ t.store.Holds b := by
  obtain ⟨reply, t, K, hruns⟩ := exists_runs_request hcarry (.switch (.file path)) s L
  obtain ⟨rfl, hb⟩ := achieves_open hmay hs hgrants h hchunk reply t K hruns
  exact ⟨t, K, hruns, hb⟩

end Session

end SheetSync
