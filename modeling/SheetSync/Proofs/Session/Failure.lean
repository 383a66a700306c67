import SheetSync.Proofs.Session.Rest
import SheetSync.Proofs.Workbook.Identity
/-!
Changes of workbook that fail. What a failing change has done by then is undone or never came to the
session: the content of the document and what is kept beside it are as they were when the work on
the workbook before had ended, and either that workbook is bound again or the session is idle, with
nothing in its caches and nothing handed on: `achieves_swap_undone`.
-/
namespace SheetSync

/-- Whether an event leaves the content of the document and the schedules as they are. -/
def Event.IsAside : Event → Prop
  | .act _ | .refresh _ => False
  | _ => True

/-- Whether a change of workbook failed, and so did putting the workbook before back. -/
def SyncError.IsRestoreFailed : SyncError → Prop
  | .restoreFailed _ _ => True
  | _ => False

/-- Caches that hold nothing under a signature. -/
def WorkbookCaches.emptyFor (signature : Signature) : WorkbookCaches :=
  ⟨⟨some signature, []⟩, ⟨some signature, []⟩⟩

namespace Session

variable {may : Session → Event → Prop} {s t u m : Session} {L K M : Ledger}

/-- Others act on the document and its schedules only while a workbook is bound, or none is to
be. -/
def Undisturbed (s : Session) (e : Event) : Prop := s.phase.isTurning → e.IsAside

/-- What a session keeps beside the workbook of its store. -/
structure SameContent (s t : Session) : Prop where
  sheets : t.document.sheets = s.document.sheets
  isDirty : t.document.isDirty = s.document.isDirty
  refresh : t.refresh = s.refresh

theorem SameContent.trans (h : SameContent s t) (h' : SameContent t u) : SameContent s u :=
  ⟨h'.sheets.trans h.sheets, h'.isDirty.trans h.isDirty, h'.refresh.trans h.refresh⟩

theorem sameContent_apply {e : Event} (he : e.IsAside) (s : Session) :
    SameContent s (e.apply s) := by
  cases e with
  | act => exact he.elim
  | refresh => exact he.elim
  | unwatch label =>
    refine ⟨?_, ?_, rfl⟩
    · show (s.document.unsubscribeLabel label).sheets = s.document.sheets
      unfold Document.unsubscribeLabel
      split <;> rfl
    · show (s.document.unsubscribeLabel label).isDirty = s.document.isDirty
      unfold Document.unsubscribeLabel
      split <;> rfl
  | _ => exact ⟨rfl, rfl, rfl⟩

theorem sameContent_detached (s : Session) : SameContent s s.detached := by
  unfold detached
  cases s.sync <;> exact ⟨rfl, rfl, rfl⟩

/-- While nothing is handed on, no event enqueues anything. -/
theorem tail_apply (hs : s.Wired) (hsync : s.sync = none) (e : Event) :
    (e.apply s).queue.tail = s.queue.tail := by
  cases e with
  | act a =>
    show (s.toLink.perform a).queue.tail = s.queue.tail
    rw [Link.perform_eq, hs.planned_eq_nil hsync]
    rfl
  | carry => exact hs.plain.runOne_tail _ _
  | _ => rfl

/-! ## Where a failing change ends -/

/-- A session in which the workbook is active that it comes back to: the hook is installed as it
was, nothing is in the caches, and one listener hands changes on. -/
structure Resumed (w : ActiveWorkbook) (hookFor : Option WorkbookId) (t : Session) : Prop where
  phase : t.phase = .active
  active : t.active = some w
  hookFor : t.hookFor = hookFor
  sync : ∃ id, t.sync = some id ∧ t.document.forwards = [id]
  caches : t.caches = .emptyFor w.signature

/-- A session that is left without a workbook after it had given out the tokens of a source: nothing
is in its caches, which are scoped to a token that was not given out before, and nothing is handed
on. -/
structure Left (before : TokenSource) (t : Session) : Prop where
  phase : t.phase = .idle
  active : t.active = none
  hookFor : t.hookFor = none
  sync : t.sync = none
  forwards : t.document.forwards = []
  caches : ∃ source : TokenSource, t.caches = .emptyFor ⟨source.token⟩ ∧ t.tokens = source.next.2
  fresh : ∀ earlier : TokenSource, earlier.key = before.key → earlier.given < before.given →
    t.caches ≠ .emptyFor ⟨earlier.token⟩

theorem Apart.resumed (h : Apart m s) (w : ActiveWorkbook) :
    Resumed w (if m.hook.isSome then some w.id else none) (s.rebound w) where
  phase := rfl
  active := rfl
  hookFor := by
    have hhooked : s.hook.isSome = m.hook.isSome := congrArg Course.isHooked h.course
    show s.hook.map (fun _ => w.id) = _
    rw [← hhooked]
    cases s.hook <;> rfl
  sync := ⟨_, rfl,
    (wired_bound (h.withCaches (s.caches.reset w.signature)).wired h.sync w).forwards⟩
  caches := rfl

theorem Apart.left (h : Apart m s) : Left m.tokens s.released where
  phase := rfl
  active := rfl
  hookFor := rfl
  sync := h.sync
  forwards := by
    have hforwards := h.wired.forwards
    rw [h.sync] at hforwards
    exact hforwards
  caches := ⟨s.tokens, rfl, rfl⟩
  fresh earlier hkey hgiven heq := by
    -- a scope of an earlier token would mean that the token was given out twice
    have htoken : s.tokens.token = earlier.token := by
      have hscope := congrArg WorkbookCaches.scope heq
      exact congrArg Signature.text (Option.some.inj hscope)
    have hsame := TokenSource.given_eq_of_token_eq (h.key.trans hkey.symm) htoken
    have hlater := h.given
    omega

/-- How a change of workbook that fails with an error leaves a session that it met in a state
`m`. -/
structure Undone (previous : Option ActiveWorkbook) (e : SyncError) (m t : Session) : Prop where
  services : t.services = m.services
  resumed : ∀ w, previous = some w → ¬ e.IsRestoreFailed →
    Resumed w (if m.hook.isSome then some w.id else none) t
  left : previous = none ∨ e.IsRestoreFailed → Left m.tokens t

theorem Apart.services (h : Apart m s) : s.services = m.services := congrArg Course.services h.course

theorem Apart.undone_rebound (h : Apart m s) (w : ActiveWorkbook) (fault : StoreError) :
    Undone (some w) (.store fault) m (s.rebound w) where
  services := h.services
  resumed := by
    rintro _ ⟨⟩ -
    exact h.resumed w
  left := by rintro (⟨⟨⟩⟩ | ⟨⟨⟩⟩)

theorem Apart.undone_released (h : Apart m s) {previous : Option ActiveWorkbook} {e : SyncError}
    (he : previous = none ∨ e.IsRestoreFailed) : Undone previous e m s.released where
  services := h.services
  resumed := by
    rintro w rfl hnot
    rcases he with ⟨⟨⟩⟩ | he
    exact absurd he hnot
  left _ := h.left

/-! ## A change that fails -/

/-- What moreover survives on the way to a workbook: nothing is enqueued, and the content is left as
it is by all who mind that no workbook is bound. -/
def Untouched (may : Session → Event → Prop) (m s : Session) : Prop :=
  s.queue.tail = m.queue.tail ∧ ((∀ s e, may s e → Undisturbed s e) → SameContent m s)

theorem survivesSwap_untouched (may : Session → Event → Prop) (m : Session) :
    SurvivesSwap may (fun _ => True) fun s _ => Apart m s ∧ Untouched may m s := by
  refine .and_apart m ?_ ?_ ?_ ?_ ?_ ?_
  · rintro s L e hmay hs ⟨htail, hcontent⟩
    -- the phase is turning all along, which is when the condition on others applies
    refine ⟨(tail_apply hs.wired hs.sync e).trans htail, fun hundisturbed => ?_⟩
    exact (hcontent hundisturbed).trans (sameContent_apply (hundisturbed s e hmay hs.phase) s)
  · rintro s L call - ⟨htail, hcontent⟩
    exact ⟨htail, fun h => (hcontent h).trans ⟨rfl, rfl, rfl⟩⟩
  · rintro s L ⟨htail, hcontent⟩
    exact ⟨htail, fun h => (hcontent h).trans ⟨rfl, rfl, rfl⟩⟩
  · rintro s L p ⟨htail, hcontent⟩
    exact ⟨htail, fun h => (hcontent h).trans ⟨rfl, rfl, rfl⟩⟩
  · rintro s L caches ⟨htail, hcontent⟩
    exact ⟨htail, fun h => (hcontent h).trans ⟨rfl, rfl, rfl⟩⟩
  · rintro s L ⟨htail, hcontent⟩
    exact ⟨htail, fun h => (hcontent h).trans ⟨rfl, rfl, rfl⟩⟩

theorem Untouched.rebound (h : Untouched may m s) (w : ActiveWorkbook) :
    Untouched may m (s.rebound w) :=
  ⟨h.1, fun hundisturbed => (h.2 hundisturbed).trans ⟨rfl, rfl, rfl⟩⟩

theorem Untouched.released (h : Untouched may m s) : Untouched may m s.released :=
  ⟨h.1, fun hundisturbed => (h.2 hundisturbed).trans ⟨rfl, rfl, rfl⟩⟩

theorem Installed.tail {d : Descriptor} {signature : Signature} {content : Snapshot}
    (h : Installed d signature content s t) (hs : s.Wired) (hsync : s.sync = none) :
    t.queue.tail = s.queue.tail := by
  obtain ⟨id, caches, tokens, -, -, rfl⟩ := h
  have hload := tail_apply hs hsync (.act (.load content))
  have hsaved := tail_apply (hs.apply_act (.load content)) hsync (.act .markSaved)
  exact hsaved.trans hload

/-- A change of workbook enqueues nothing from its turning point on, and one that fails is
undone. -/
theorem achieves_swap_undone {target : Target} (hm : m.Wired) (hidle : m.isIdle)
    (hphase : m.phase = .draining ∨ m.phase = .beforeClose) (previous : Option ActiveWorkbook) :
    Achieves (Rely may) (swap target previous) m M fun r t _ => t.queue.tail = m.queue.tail ∧
      match r with
      | .ok reply => ∃ d, reply = .completed d
      | .error e => Untouched may m t ∧ Undone previous e m t := by
  have hI := survivesSwap_untouched may m
  have hdetached := sameContent_detached ({ m with phase := .closing } : Session)
  have htail : (detached { m with phase := .closing }).queue.tail = m.queue.tail := by
    unfold detached
    cases m.sync <;> rfl
  refine achieves_swap hphase (fun s _ => Apart m s ∧ Untouched may m s)
    (fun _ s _ => Apart m s ∧ Untouched may m s) (fun _ r _ => AnyContent r) hI
    ⟨.start hm hidle _, htail, fun _ => ⟨hdetached.sheets, hdetached.isDirty, hdetached.refresh⟩⟩
    ?_ ?_ (fun _ => hI) (fun _ => trivial) ?_ ?_ ?_
  · intro fault s L _ hs
    -- the store refused to turn, so there is nothing to put back
    have hs := hI.phase (L := L) (p := .rollingBack) rfl hs
    cases previous with
    | none =>
      refine achieves_recover_none false ⟨_, rfl, hs.2.1, ?_⟩
      exact ⟨hs.2.released, hs.1.undone_released (.inl rfl)⟩
    | some w =>
      refine achieves_recover_unturned ⟨_, rfl, hs.2.1, ?_⟩
      exact ⟨hs.2.rebound w, hs.1.undone_rebound w fault⟩
  · rintro d s _ L hs (⟨b, rfl, -⟩ | ⟨rfl, -⟩)
    · exact ⟨hs.1.withStore _, hs.2.1, fun h => (hs.2.2 h).trans ⟨rfl, rfl, rfl⟩⟩
    · exact hs
  · intro d s L hs hloading
    exact achieves_loadContent hI (fun _ _ => trivial) hs hloading
  · intro d e s L hs hfault
    -- the store turned and the content could not be read: a store fault, never a failed restore
    obtain ⟨fault, rfl⟩ := hfault e rfl
    have hs := hI.phase (L := L) (p := .rollingBack) rfl hs
    cases previous with
    | none =>
      refine achieves_recover_none true ⟨_, rfl, hs.2.1, ?_⟩
      exact ⟨hs.2.released, hs.1.undone_released (.inl rfl)⟩
    | some w =>
      refine achieves_recover_turned (Achieves.imp (achieves_restoreStore hI ?_ ?_ ?_
        (hI.log (L := L) trivial hs)) ?_)
      · rintro s L b ⟨hs, htail, hcontent⟩
        exact ⟨hs.withStore _, htail, fun h => (hcontent h).trans ⟨rfl, rfl, rfl⟩⟩
      · exact fun _ => trivial
      · exact fun _ _ => trivial
      -- what is left decides between the two ends, not how far the store got
      · rintro (e' | _) t K ht
        · exact ⟨_, rfl, ht.2.1, ht.2.released, ht.1.undone_released (.inr trivial)⟩
        · exact ⟨_, rfl, ht.2.1, ht.2.rebound w, ht.1.undone_rebound w fault⟩
  · rintro d s L content t hs - ⟨signature, -, ht⟩
    exact ⟨(ht.tail hs.1.wired hs.1.sync).trans hs.2.1, d, rfl⟩

/-! ## Without a workbook -/

theorem survivesClosing_silent (n : Nat) :
    SurvivesClosing may fun s _ => s.Wired ∧ s.sync = none ∧ s.queue.tail = n where
  event s L e _ hs := by
    obtain ⟨hwired, hsync, htail⟩ := hs
    have hsync' : (e.apply s).sync = s.sync := congrArg Course.sync (course_apply s e)
    exact ⟨hwired.apply e, hsync'.trans hsync, (tail_apply hwired hsync e).trans htail⟩
  phase _ hs := ⟨hs.1.congr rfl rfl rfl, hs.2⟩
  hook _ _ hs := ⟨hs.1.congr rfl rfl rfl, hs.2⟩

/-- While a session has no workbook, a request enqueues nothing, and only a change of workbook that
succeeds gives it one. -/
theorem AtRest.request_of_idle (hs : s.AtRest) (hactive : s.active = none) {r : Request}
    {reply : Except SyncError Reply}
    (h : Activity.Runs (Rely may) (Session.request r).run s L reply t K) :
    t.queue.tail = s.queue.tail ∧ (t.active = none ∨ ∃ d, reply = .ok (.completed d)) := by
  have hsave : (∀ target, r ≠ .switch target) → t = s := fun hr =>
    ((atOnce_noActiveWorkbook hs.isBusy hactive hr).eq_of_runs h).2.1
  cases r with
  | save =>
    obtain rfl := hsave (by simp)
    exact ⟨rfl, .inl hactive⟩
  | saveAs path =>
    obtain rfl := hsave (by simp)
    exact ⟨rfl, .inl hactive⟩
  | switch target =>
    rcases exists_turnsAt hs.isBusy hs.stable.phase_eq h with ⟨-, -, prompts, rfl⟩ | ⟨m, M, hturn⟩
    · exact ⟨rfl, .inl hactive⟩
    · obtain ⟨hidle, hphase, -, hwired, -, htail⟩ := hturn.closing
        (survivesClosing_silent s.queue.tail)
        fun prompts => ⟨hs.wired.congr rfl rfl rfl, hs.sync_eq_none hactive, rfl⟩
      obtain ⟨u, ⟨htail', hu⟩, rfl⟩ := hturn.ends (achieves_swap_undone hwired hidle hphase s.active)
      refine ⟨htail'.trans htail, ?_⟩
      cases reply with
      | ok reply =>
        obtain ⟨d, rfl⟩ := hu
        exact .inr ⟨d, rfl⟩
      | error e => exact .inl (hu.2.left (.inl hactive)).active

end Session

/-- Whether no change of workbook has succeeded. -/
def Ledger.NoneCompleted (L : Ledger) : Prop :=
  ∀ a ∈ L.answers, ∀ d, a.reply ≠ .ok (.completed d)

@[simp] theorem Event.answers_note (s : Session) (L : Ledger) (e : Event) :
    (e.note s L).answers = L.answers := by
  cases e with
  | carry =>
    simp only [note]
    cases s.toLink.pending <;> rfl
  | _ => rfl

/-- Nothing is answered while a step is under way. -/
theorem Session.answers_of_runs {α : Type} {may : Session → Event → Prop} {s t : Session}
    {L K : Ledger} {m : SessionM α} {r : Except SyncError α}
    (h : Activity.Runs (Session.Rely may) m.run s L r t K) : K.answers = L.answers :=
  h.keeps (J := fun N => N.answers = L.answers)
    (fun hk hg => hk.1.keeps (I := fun _ N => N.answers = L.answers)
      (fun s K e _ hK => (Event.answers_note s K e).trans hK) hg) rfl

/-- A session without a workbook has none, and enqueues nothing, until a change succeeds. -/
theorem Run.silent {may : Session → Event → Prop} {s t : Session} {K : Ledger} (hs : s.AtRest)
    (hactive : s.active = none) (h : Run may s t K) (hnone : K.NoneCompleted) :
    t.active = none ∧ t.queue.tail = s.queue.tail := by
  -- on the run; the ledger shows at each step that no change has succeeded by then
  induction h with
  | start => exact ⟨hactive, rfl⟩
  | @event u K e hrun _ ih =>
    unfold Ledger.NoneCompleted at hnone
    rw [Event.answers_note] at hnone
    obtain ⟨hactive, htail⟩ := ih hnone
    have hu := hrun.atRest hs
    exact ⟨(congrArg Course.active (Session.course_apply u e)).trans hactive,
      (Session.tail_apply hu.wired (hu.sync_eq_none hactive) e).trans htail⟩
  | request r hrun hreq ih =>
    have hanswers := Session.answers_of_runs hreq
    obtain ⟨hactive, htail⟩ := ih fun a ha =>
      hnone a (List.mem_append_left _ (hanswers.symm ▸ ha))
    obtain ⟨htail', hend⟩ := (hrun.atRest hs).request_of_idle hactive hreq
    refine ⟨?_, htail'.trans htail⟩
    rcases hend with hend | ⟨d, rfl⟩
    · exact hend
    · exact absurd rfl (hnone _ (List.mem_append_right _ (List.mem_singleton.mpr rfl)) d)

/-! ## The session after a change that fails -/

namespace Session

variable {may : Session → Event → Prop} {s t : Session} {L K : Ledger}

/-- A session from which nothing is handed on until it gets a workbook. -/
def IsSilent (t : Session) : Prop :=
  ∀ (may : Session → Event → Prop) (u : Session) (N : Ledger), Run may t u N → N.NoneCompleted →
    u.queue.tail = t.queue.tail ∧
      ∀ (r : Request) (reply : Except SyncError Reply) (v : Session) (P : Ledger),
        Activity.Runs (Rely may) (request r).run u N reply v P → v.queue.tail = t.queue.tail

theorem AtRest.isSilent (ht : t.AtRest) (hactive : t.active = none) : t.IsSilent := by
  intro may u N hrun hnone
  obtain ⟨hu, htail⟩ := hrun.silent ht hactive hnone
  refine ⟨htail, fun r reply v P hreq => ?_⟩
  exact ((hrun.atRest ht).request_of_idle hu hreq).1.trans htail

/-- A change of workbook that fails leaves the session as it was. From the state `m` on, where the
work on the workbook before and its hook had ended, the services are not restarted, and the document
and the schedules change only if others change them. If there was a workbook and the store has it
back, it is bound as before; else the session is idle and stays silent until it gets a workbook. -/
theorem failed_switch {s₀ : Session} {target : Target} {e : SyncError} (hnew : s₀.IsNew)
    (hrun : Run may s₀ s L)
    (h : Activity.Runs (Rely may) (request (.switch target)).run s L (.error e) t K) :
    ∃ m M, TurnsAt may target s L (.error e) t K m M ∧
      t.services = m.services ∧
      ((∀ s e, may s e → Undisturbed s e) → SameContent m t) ∧
      (∀ w, s.active = some w → ¬ e.IsRestoreFailed → Resumed w s.hookFor t) ∧
      (s.active = none ∨ e.IsRestoreFailed → Left s.tokens t ∧ t.IsSilent) := by
  have hs := hrun.atRest hnew.atRest
  have ht := hs.request _ h
  rcases exists_turnsAt hs.isBusy hs.stable.phase_eq h with ⟨⟨⟩, -⟩ | ⟨m, M, hturn⟩
  obtain ⟨hidle, hphase, hcourse, hwired⟩ :=
    hturn.closing survivesClosing_wired fun prompts => hs.wired.congr rfl rfl rfl
  obtain ⟨u, ⟨-, hcontent, hundone⟩, rfl⟩ :=
    hturn.ends (achieves_swap_undone hwired hidle hphase s.active)
  refine ⟨m, M, hturn, hundone.services, ?_, ?_, fun hleft => ?_⟩
  · intro hundisturbed
    exact (hcontent.2 hundisturbed).trans ⟨rfl, rfl, rfl⟩
  · intro w hw hnot
    have hhooked : m.hook.isSome = s.hook.isSome := congrArg Course.isHooked hcourse
    have hhook : s.hookFor = s.active.bind fun v => if s.hook.isSome then some v.id else none :=
      hs.stable.hookFor
    have hresumed := hundone.resumed w hw hnot
    rw [hhooked, show (if s.hook.isSome then some w.id else none) = s.hookFor by
      rw [hhook, hw]; rfl] at hresumed
    exact ⟨hresumed.phase, hresumed.active, hresumed.hookFor, hresumed.sync, hresumed.caches⟩
  · have htokens : m.tokens = s.tokens := congrArg Course.tokens hcourse
    have hend := hundone.left hleft
    rw [htokens] at hend
    exact ⟨⟨hend.phase, hend.active, hend.hookFor, hend.sync, hend.forwards, hend.caches,
      hend.fresh⟩, ht.isSilent hend.active⟩

theorem failed_switch_refusing :
    ∃ s L t K w e, Run (fun _ _ => True) (.on { watch := some { openFails := true } }) s L ∧
      s.active = some w ∧
      Activity.Runs (Rely fun _ _ => True) (request (.switch (.file "a"))).run s L (.error e) t K ∧
      Resumed w s.hookFor t := by
  have hends : ((request (.switch .blank)).run
      (.on { watch := some { openFails := true } })).end?.any fun first =>
      first.2.active.isSome && ((request (.switch (.file "a"))).run first.2).end?.any fun second =>
        isStoreFault second.1 := by
    decide +kernel
  obtain ⟨⟨r, s⟩, hs, hends⟩ := (Option.any_eq_true _ _).mp hends
  obtain ⟨hactive, hends⟩ := Bool.and_eq_true_iff.mp hends
  obtain ⟨⟨r', t⟩, ht, hfault⟩ := (Option.any_eq_true _ _).mp hends
  obtain ⟨w, hw⟩ := Option.isSome_iff_exists.mp hactive
  obtain ⟨L, hrun⟩ : ∃ L, Run (fun _ _ => True) _ s L := ⟨_, Run.of_end? hs⟩
  have hreq : Activity.Runs (Rely fun _ _ => True) _ s L r' t L := Progress.runs_of_end? ht
  obtain ⟨fault, rfl⟩ := exists_of_isStoreFault hfault
  obtain ⟨m, M, -, -, -, hresumed, -⟩ := failed_switch (isNew_on _) hrun hreq
  exact ⟨s, L, t, L, w, _, hrun, hw, hreq, hresumed w hw id⟩

end Session

end SheetSync
