import SheetSync.Proofs.Session.Saving
/-!
Sessions that are left alone with their queue and their hook. Whatever such a session is asked to
do, no two sheets of its document have one id, nor do two sheets of the workbook in its store, and
every write that was enqueued either waits or was carried out. With a user who approves of
everything and has a path for every save, no request is given up.

Main statements: `Approved.perform_request` for requests, and `Approved.perform_settle`, after which
nothing waits.
-/
namespace SheetSync

/-! ## Links -/

/-- Sheets are told apart by their ids, and writes that are not carried out wait. -/
structure Link.Accountable (l : Link) : Prop where
  document : l.document.WellFormed
  book : ∀ b, l.store.workbook = some b → (Keyed.keys b.sheets).Nodup
  plain : l.queue.IsPlain
  counted : l.queue.completed + l.queue.waiting.length = l.queue.tail

namespace Link.Accountable

variable {l k : Link}

/-- Only the workbook matters of the store. -/
theorem congr (h : l.Accountable) (hdocument : k.document = l.document) (hqueue : k.queue = l.queue)
    (hbook : k.store.workbook = l.store.workbook) : k.Accountable := by
  refine ⟨?_, ?_, ?_, ?_⟩
  · rw [hdocument]
    exact h.document
  · rw [hbook]
    exact h.book
  · rw [hqueue]
    exact h.plain
  · rw [hqueue]
    exact h.counted

theorem carry (h : l.Accountable) : l.carry.Accountable where
  document := h.document
  book b hb := by
    rw [store_carry] at hb
    cases hw : l.pending.head? with
    | none =>
      rw [hw] at hb
      exact h.book b hb
    | some w =>
      -- a write changes cells, whatever becomes of it
      have hframe := Store.descriptor_perform_apply w l.store
      rw [hw] at hb
      rw [show ((Store.apply w).perform l.store).2.workbook = some b from hb, Option.map_some,
        eq_comm, Option.map_eq_some_iff] at hframe
      obtain ⟨b₀, hb₀, hdescriptor⟩ := hframe
      rw [Workbook.keys_sheets, ← hdescriptor, ← Workbook.keys_sheets]
      exact h.book b₀ hb₀
  plain := h.plain.runOne _ _
  counted := by
    show (l.queue.runOne runWrite l.store).1.completed +
      (l.queue.runOne runWrite l.store).1.waiting.length = (l.queue.runOne runWrite l.store).1.tail
    rw [h.plain.runOne_completed, h.plain.runOne_tail]
    exact h.counted

theorem iterate_carry (h : l.Accountable) (n : Nat) : (Link.carry^[n] l).Accountable := by
  induction n with
  | zero => exact h
  | succ n ih =>
    rw [Function.iterate_succ_apply']
    exact ih.carry

theorem turn (h : l.Accountable) : l.turn.Accountable := by
  obtain ⟨n, hn⟩ := exists_turn_eq h.plain
  rw [hn]
  exact h.iterate_carry n

theorem drain (h : l.Accountable) : l.drain.Accountable := by
  obtain ⟨n, hn⟩ := l.exists_drain_eq
  rw [hn]
  exact h.iterate_carry n

theorem perform (h : l.Accountable) (a : DocumentAction) : (l.perform a).Accountable := by
  rw [perform_eq]
  refine ⟨(h.document.perform a).1, h.book, h.plain.enqueueAll _, ?_⟩
  have hcounted := h.counted
  simp only [Queue.enqueueAll_eq, List.length_append, List.length_zip, List.length_range',
    Nat.min_self]
  omega

theorem withBook (h : l.Accountable) {b : Workbook} (hb : (Keyed.keys b.sheets).Nodup) :
    Link.Accountable { l with store := { l.store with workbook := some b } } where
  document := h.document
  book b' hb' := by
    obtain rfl := Option.some.inj hb'
    exact hb
  plain := h.plain
  counted := h.counted

/-- Nothing is pending where nothing waits. -/
theorem pending_stats (h : l.Accountable) (hidle : l.queue.waiting = []) :
    l.queue.stats.pending = 0 := by
  have hcounted := h.counted
  rw [hidle] at hcounted
  show l.queue.tail - l.queue.completed = 0
  rw [← hcounted]
  exact Nat.sub_self _

end Link.Accountable

namespace Session

variable {α β : Type} {path : String} {s t : Session}

/-! ## Sessions -/

/-- A session for which everything is approved, with one path for all saves. -/
structure Approved (path : String) (s : Session) : Prop extends s.toLink.Accountable where
  prompts : s.prompts = .approving (some path)

namespace Approved

theorem congr (h : s.Approved path) (hdocument : t.document = s.document)
    (hqueue : t.queue = s.queue) (hbook : t.store.workbook = s.store.workbook)
    (hprompts : t.prompts = s.prompts) : t.Approved path :=
  ⟨h.toAccountable.congr hdocument hqueue hbook, hprompts.trans h.prompts⟩

theorem withLink (h : s.Approved path) {l : Link} (hl : l.Accountable) :
    Approved path { s with toLink := l } := ⟨hl, h.prompts⟩

theorem withBook (h : s.Approved path) {b : Workbook} (hb : (Keyed.keys b.sheets).Nodup) :
    (s.withBook b).Approved path := ⟨h.toAccountable.withBook hb, h.prompts⟩

theorem attend (h : s.Approved path) (k : Pause) : (attend k s).Approved path := by
  have hdrain : Approved path { s with toLink := s.toLink.drain } :=
    h.withLink h.toAccountable.drain
  cases k with
  | turn => exact h.withLink h.toAccountable.turn
  | hook =>
    show s.act.Approved path
    unfold act
    split
    · next a _ => exact h.withLink (h.toAccountable.perform a)
    · exact h
  | _ => exact hdrain

end Approved

/-- What happens at the pauses of a session that is left alone. -/
def Alone (k : Pause) (s : Session) (_ : Unit) (t : Session) (_ : Unit) : Prop := t = attend k s

/-- Whatever a step comes to, the session is approved of as it was before. -/
abbrev KeepsApproved (path : String) (m : SessionM α) : Prop :=
  Keeps Alone (fun s _ => s.Approved path) m

namespace KeepsApproved

theorem modify {f : Session → Session} (hf : ∀ s, s.Approved path → (f s).Approved path) :
    KeepsApproved path (modify f : SessionM PUnit) := Keeps.modify fun s _ hs => hf s hs

theorem pause (k : Pause) : KeepsApproved path (pause k) :=
  Keeps.pause fun s _ t _ hk hs => by
    rw [show t = Session.attend k s from hk]
    exact hs.attend k

theorem perform (a : DocumentAction) : KeepsApproved path (perform a) :=
  modify fun _ hs => hs.withLink (hs.toAccountable.perform a)

theorem advance (p : Phase) : KeepsApproved path (advance p) :=
  keeps_advance (fun _ hs => hs.congr rfl rfl rfl rfl) p

theorem newToken : KeepsApproved path newToken := fun _ _ hs =>
  achieves_newToken.mpr (hs.congr rfl rfl rfl rfl)

theorem setScope (signature : Signature) : KeepsApproved path (setScope signature) :=
  modify fun _ hs => hs.congr rfl rfl rfl rfl

theorem bound (w : ActiveWorkbook) : KeepsApproved path (bind w) :=
  modify fun _ hs => ⟨⟨hs.document.subscribe, hs.book, hs.plain, hs.counted⟩, hs.prompts⟩

theorem detach : KeepsApproved path detach := modify fun s hs => by
  refine ⟨?_, hs.prompts⟩
  dsimp only
  split
  · exact ⟨hs.document.unsubscribe _, hs.book, hs.plain, hs.counted⟩
  · exact hs.toAccountable

theorem restartServices (id : WorkbookId) : KeepsApproved path (restartServices id) :=
  modify fun _ hs => hs.congr rfl rfl rfl rfl

/-! ## Waiting -/

theorem settles (hs : s.Approved path) :
    Achieves Alone settle s () fun r t _ => r = .ok () ∧ t.isIdle ∧ t.Approved path := by
  have hattend : ∀ {k : Pause} {s t : Session} {g h : Unit}, Alone k s g t h → s.Approved path →
      t.Approved path := by
    rintro k s _ - - rfl hs
    exact hs.attend k
  refine achieves_settle (I := fun s _ => s.Approved path) hattend ?_ hs
  rintro s _ - - rfl hs
  exact ⟨Queue.isIdle_iff.mpr (Link.drain_waiting hs.plain), hs.attend .queue⟩

theorem settle : KeepsApproved path settle := fun _ _ hs => (settles hs).imp fun _ _ _ ht => ht.2.2

theorem drain : KeepsApproved path drain := by
  refine .bind .get fun s => ?_
  split
  · exact pause .queue
  · exact .pure _

/-! ## Commands -/

/-- What a command of a session that is left alone may do. -/
theorem savable : Savable Alone (fun _ => True) fun s _ => s.Approved path where
  rely {k s g t h} hk hs := by
    rw [show t = Session.attend k s from hk]
    exact hs.attend k
  log _ hs := hs.congr rfl rfl rfl rfl
  spend hs := hs.congr rfl rfl rfl rfl
  files _ hs := hs.congr rfl rfl rfl rfl
  path {s g} p hs := by
    refine ⟨⟨hs.document, fun b hb => ?_, hs.plain, hs.counted⟩, hs.prompts⟩
    obtain ⟨b₀, hb₀, rfl⟩ := Option.map_eq_some_iff.mp hb
    exact hs.book b₀ hb₀

theorem rewritable : Rewritable Alone (fun _ => True) fun s _ => s.Approved path where
  toLasting := savable.toLasting
  book hb hframe hs := hs.withBook (by rw [hframe.keys]; exact hs.book _ hb)

theorem turnStore (target : Target) : KeepsApproved path (turnStore target) := by
  intro s g hs
  cases target with
  | blank =>
    refine achieves_command.mpr (commands_newWorkbook.mpr ?_)
    have hlogged : Approved path { s with store := s.store.logged .newWorkbook } :=
      hs.congr rfl rfl rfl rfl
    split
    · exact hlogged.withBook (List.nodup_singleton _)
    · exact hlogged
  | file p =>
    refine achieves_command.mpr
      ((savable.toLasting.openWorkbook (hs.congr rfl rfl rfl rfl)).imp ?_)
    rintro (e | d) t h ht
    · exact ht
    · obtain ⟨u, b, hu, rfl, ⟨content, time, file, -, -, rfl⟩, -⟩ := ht
      exact hu.withBook (Keyed.nodup_keys_ofList _)

theorem fillCaches (signature : Signature) : KeepsApproved path (fillCaches signature) := by
  have hnames : KeepsApproved path (command Store.listNames) := fun _ _ hs =>
    achieves_command.mpr (commands_listNames.mpr (hs.congr rfl rfl rfl rfl))
  have htables : KeepsApproved path (command Store.listTables) := fun _ _ hs =>
    achieves_command.mpr (commands_listTables.mpr (hs.congr rfl rfl rfl rfl))
  exact .bind (.tryCatch hnames fun _ => .pure _) fun _ =>
    .bind (.tryCatch htables fun _ => .pure _) fun _ =>
      modify fun _ hs => hs.congr rfl rfl rfl rfl

theorem loadContent (d : Descriptor) : KeepsApproved path (loadContent d) :=
  .bind .get fun _ => (savable.readable.loadSnapshot (fun _ _ => trivial) d _ _).keeps

/-! ## Changing the workbook -/

theorem mayDiscard : KeepsApproved path mayDiscard := by
  intro s g hs
  refine atOnce_mayDiscard.achieves.mpr ⟨hs.toAccountable, ?_⟩
  -- who approves of everything is left as before
  show s.promptsAsked = _
  unfold promptsAsked
  rw [hs.prompts]
  split <;> rfl

theorem runHook (w : ActiveWorkbook) : KeepsApproved path (runHook w) := by
  refine .bind .get fun s => ?_
  split
  · exact .pure _
  · refine .ite (fun _ => .pure _) fun _ => .bind (advance _) fun _ => .bind ?_ fun _ =>
      .bind (pause .hook) fun _ => drain
    exact modify fun _ hs => hs.congr rfl rfl rfl rfl

theorem conclude : KeepsApproved path conclude := by
  refine .bind (advance _) fun _ => .bind settle fun _ => .bind .get fun s => ?_
  dsimp only
  cases s.active with
  | none => exact .bind (f := fun _ => Pure.pure none) (.pure ()) fun _ => .pure _
  | some w => exact .bind (runHook w) fun _ => .pure _

theorem identify (d : Descriptor) : KeepsApproved path (identify d) := by
  unfold Session.identify
  split
  · exact .pure _
  · exact .bind newToken fun _ => .pure _

theorem install (d : Descriptor) (signature : Signature) (content : Snapshot) :
    KeepsApproved path (install d signature content) :=
  .bind (perform _) fun _ => .bind (perform _) fun _ => .bind (fillCaches _) fun _ =>
    .bind (identify d) fun _ => .bind (advance _) fun _ => .bind (bound _) fun _ =>
      restartServices _

theorem loadTarget (d : Descriptor) : KeepsApproved path (loadTarget d) := by
  have hsignature : ∀ token, KeepsApproved path (command (Store.signature d token)) :=
    fun token s g hs => achieves_command.mpr
      ((savable.toLasting.signature (fun _ => trivial) d token hs).imp fun _ _ _ ht => ht.1)
  exact .bind newToken fun _ => .bind (hsignature _) fun _ => .bind (setScope _) fun _ =>
    .bind (advance _) fun _ => .bind (loadContent d) fun _ => install d _ _

theorem returnToIdle : KeepsApproved path returnToIdle :=
  .bind newToken fun _ => .bind (setScope _) fun _ => modify fun _ hs => hs.congr rfl rfl rfl rfl

theorem restoreStore (w : ActiveWorkbook) : KeepsApproved path (restoreStore w) :=
  .bind (turnStore _) fun d => .bind .get fun _ => .bind
    (rewritable.replaySnapshot (fun _ => trivial) (fun _ _ => trivial) d _ _ _).keeps fun _ =>
      .pure _

theorem rollBack (previous : Option ActiveWorkbook) (turned : Bool) :
    KeepsApproved path (rollBack previous turned) := by
  refine .bind (modify fun _ hs => hs.congr rfl rfl rfl rfl) fun _ => ?_
  cases previous with
  | none => exact returnToIdle
  | some w =>
    have hbind : KeepsApproved path (do Session.setScope w.signature; Session.bind w) :=
      .bind (setScope _) fun _ => bound w
    refine .ite (fun _ => .bind (.tryCatch (restoreStore w) fun e => ?_) fun _ => hbind)
      fun _ => hbind
    exact .bind returnToIdle fun _ => .throw e

theorem recover (previous : Option ActiveWorkbook) (turned : Bool) (e : SyncError) :
    KeepsApproved path (recover previous turned e) :=
  .tryCatch (.bind (rollBack previous turned) fun _ => .pure _) fun _ => .pure _

/-! ## Saving -/

theorem activeWorkbook : KeepsApproved path activeWorkbook := by
  refine .bind .get fun s => ?_
  split
  · exact .pure _
  · exact .throw _

theorem writeOut (p : String) : KeepsApproved path (writeOut p) :=
  .bind settle fun _ => .bind (savable.saveWorkbook trivial).keeps fun _ => perform _

theorem saving {attempt : SessionM Unit} (h : KeepsApproved path attempt) :
    KeepsApproved path (saving attempt) :=
  .bind (advance _) fun _ => .bind
    (.tryCatch h fun e => .bind (.tryCatch (advance _) fun _ => .pure _) fun _ => .throw e) fun _ =>
      advance _

theorem rename (w : ActiveWorkbook) (p : String) : KeepsApproved path (rename w p) :=
  .bind (modify fun _ hs => hs.congr rfl rfl rfl rfl) fun _ => restartServices _

end KeepsApproved

/-! ## Requests -/

/-- A step that keeps the session approved of and is not given up. -/
def IsAnswered (path : String) (m : SessionM Reply) : Prop :=
  ∀ s, s.Approved path →
    Achieves Alone m s () fun r t _ => t.Approved path ∧ r ≠ .ok .cancelled

namespace IsAnswered

theorem pure {r : Reply} (hr : r ≠ .cancelled) : IsAnswered path (pure r) := fun _ hs =>
  (achieves_pure r).mpr ⟨hs, fun h => hr (Except.ok.inj h)⟩

theorem bind {m : SessionM α} {f : α → SessionM Reply} (hm : KeepsApproved path m)
    (hf : ∀ a, IsAnswered path (f a)) : IsAnswered path (m >>= f) := by
  intro s hs
  refine achieves_bind.mpr ((hm s () hs).imp ?_)
  rintro (e | a) t - ht
  · exact ⟨ht, nofun⟩
  · exact hf a t ht

theorem swap (target : Target) (previous : Option ActiveWorkbook) :
    IsAnswered path (swap target previous) := by
  have hrecover : ∀ {α : Type} (turned : Bool) (e : SyncError),
      KeepsApproved path (recover previous turned e >>= fun e => (throw e : SessionM α)) :=
    fun turned e => .bind (KeepsApproved.recover previous turned e) fun e => .throw e
  refine .bind (KeepsApproved.advance _) fun _ => .bind KeepsApproved.detach fun _ => ?_
  refine .bind (.tryCatch (KeepsApproved.turnStore target) (hrecover false)) fun d => ?_
  exact .bind (.tryCatch (KeepsApproved.loadTarget d) (hrecover true)) fun _ => .pure nofun

theorem switch (target : Target) : IsAnswered path (switch target) := by
  refine .bind .get fun s => .bind (KeepsApproved.advance _) fun _ => .bind KeepsApproved.mayDiscard fun granted => ?_
  split
  · exact .bind KeepsApproved.conclude fun previous => swap target previous
  · exact .bind (KeepsApproved.advance _) fun _ => .pure nofun

theorem saveUnder (w : ActiveWorkbook) (p : Option String) :
    IsAnswered path (saveUnder w p) := by
  have hsaved : ∀ p, IsAnswered path (do
      saving do
        writeOut p
        rename w p
      return .saved p) := fun p =>
    .bind (KeepsApproved.saving (.bind (KeepsApproved.writeOut p) fun _ => KeepsApproved.rename w p)) fun _ => .pure nofun
  cases p with
  | some p => exact hsaved p
  | none =>
    -- a path is asked for, and there is one
    intro s hs
    have hchosen : s.prompts.choosePath = (some path, s.prompts) := by rw [hs.prompts]; rfl
    refine (atOnce_choosePath.achieves_bind (a := s.prompts.choosePath.1)).mpr ?_
    rw [hchosen]
    exact hsaved path s hs

theorem save (w : ActiveWorkbook) : IsAnswered path (save w) := by
  unfold Session.save
  split
  · exact saveUnder w none
  · next p _ => exact .bind (KeepsApproved.saving (KeepsApproved.writeOut p)) fun _ => .pure nofun

theorem exclusively {m : SessionM Reply} (hm : IsAnswered path m) :
    IsAnswered path (exclusively m) := by
  intro s hs
  cases hbusy : s.isBusy with
  | true =>
    refine achieves_bind.mpr (achieves_get.mpr ?_)
    dsimp only
    rw [hbusy]
    exact (achieves_throw _).mpr ⟨hs, nofun⟩
  | false =>
    have hs : Approved path { s with isBusy := true } := hs.congr rfl rfl rfl rfl
    refine (achieves_exclusively hbusy).mpr ((hm _ hs).imp ?_)
    rintro r t - ⟨ht, hr⟩
    exact ⟨ht.congr rfl rfl rfl rfl, hr⟩

theorem request (r : Request) : IsAnswered path (request r) := by
  refine exclusively ?_
  cases r with
  | switch target => exact switch target
  | save => exact .bind KeepsApproved.activeWorkbook save
  | saveAs p => exact .bind KeepsApproved.activeWorkbook fun w => saveUnder w p

end IsAnswered

namespace Approved

/-- Whatever is requested of a session that is approved of, it is not given up. -/
theorem perform_request (hs : s.Approved path) (r : Request) :
    ((request r).perform s).2.Approved path ∧ ((request r).perform s).1 ≠ .ok .cancelled :=
  achieves_attempt.mp (IsAnswered.request r s hs)

theorem perform_settle (hs : s.Approved path) :
    (settle.perform s).2.isIdle ∧ (settle.perform s).2.Approved path :=
  (achieves_attempt.mp (KeepsApproved.settles hs)).2

end Approved

end Session

end SheetSync
