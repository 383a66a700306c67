import SheetSync.Proofs.Session.Command
/-!
The steps that requests are made of, one statement for each. A step that does not pause has exactly
one outcome. The others are judged by what survives the events that may happen while they pause.
Main statements: `achieves_conclude`, by which a change of workbook has no write left when it comes
to turn the store, and `exists_turnsAt`, by which every change that is not declined passes through
such a state.
-/
namespace SheetSync.Session

variable {may : Session → Event → Prop} {s t : Session} {L K : Ledger}

/-! ## Steps with one outcome -/

section Exact

variable {γ : Type} {rely : Pause → Session → γ → Session → γ → Prop} {g : γ}

theorem atOnce_advance {target : Phase} (h : s.phase.Permits target) :
    AtOnce (advance target) s (.ok ()) { s with phase := target } := by
  refine .bind .get ?_
  rw [if_pos h]
  exact .set _

theorem achieves_advance {target : Phase} (h : s.phase.Permits target)
    {post : Except SyncError Unit → Session → γ → Prop} :
    Achieves rely (advance target) s g post ↔ post (.ok ()) { s with phase := target } g :=
  (atOnce_advance h).achieves

theorem achieves_setScope (signature : Signature)
    {post : Except SyncError Unit → Session → γ → Prop} :
    Achieves rely (setScope signature) s g post ↔
      post (.ok ()) { s with caches := s.caches.reset signature } g := achieves_modify _

theorem achieves_newToken {post : Except SyncError String → Session → γ → Prop} :
    Achieves rely newToken s g post ↔
      post (.ok s.tokens.token) { s with tokens := s.tokens.next.2 } g := by
  refine achieves_bind.trans (achieves_get.trans ?_)
  exact achieves_bind.trans ((achieves_set _).trans (achieves_pure _))

/-- The session in which a workbook is bound. -/
def bound (w : ActiveWorkbook) (s : Session) : Session :=
  { s with
    toLink := s.toLink.startSync.2
    sync := some s.toLink.startSync.1
    hookFor := s.hook.map fun _ => w.id
    active := some w
    phase := .active }

theorem achieves_bound (w : ActiveWorkbook) {post : Except SyncError Unit → Session → γ → Prop} :
    Achieves rely (bind w) s g post ↔ post (.ok ()) (s.bound w) g := achieves_modify _

/-- The session that is taken apart from its workbook. -/
def detached (s : Session) : Session :=
  { s with
    toLink := match s.sync with
      | some id => s.toLink.stopSync id
      | none => s.toLink
    sync := none
    hookFor := none }

theorem achieves_detach {post : Except SyncError Unit → Session → γ → Prop} :
    Achieves rely detach s g post ↔ post (.ok ()) s.detached g := achieves_modify _

/-- The session that is left without a workbook. -/
def released (s : Session) : Session :=
  { s with
    tokens := s.tokens.next.2
    caches := s.caches.reset ⟨s.tokens.token⟩
    active := none
    hookFor := none
    phase := .idle }

theorem achieves_returnToIdle {post : Except SyncError Unit → Session → γ → Prop} :
    Achieves rely returnToIdle s g post ↔ post (.ok ()) s.released g := by
  refine achieves_bind.trans (achieves_newToken.trans ?_)
  exact achieves_bind.trans ((achieves_setScope _).trans (achieves_modify _))

/-- Whether the user is to be asked before the content of the document is given up. -/
def asksDiscard (s : Session) : Bool := s.document.isDirty && !s.collaboration

/-- Whether the content may be given up, with the answer of the user where one is needed. -/
def grantsDiscard (s : Session) : Bool := !s.asksDiscard || s.prompts.discard.1

/-- The prompts after the user was asked, where that is needed. -/
def promptsAsked (s : Session) : Prompts := if s.asksDiscard then s.prompts.discard.2 else s.prompts

theorem atOnce_mayDiscard :
    AtOnce mayDiscard s (.ok s.grantsDiscard) { s with prompts := s.promptsAsked } := by
  refine .bind .get ?_
  unfold grantsDiscard promptsAsked
  by_cases hcollaboration : s.collaboration
  · have hasks : s.asksDiscard = false := by simp [asksDiscard, hcollaboration]
    rw [if_pos hcollaboration, hasks]
    exact .pure _
  rw [if_neg hcollaboration]
  rw [Bool.not_eq_true] at hcollaboration
  cases hdirty : s.document.isDirty with
  | false =>
    have hasks : s.asksDiscard = false := by simp [asksDiscard, hdirty]
    rw [hasks]
    exact .pure _
  | true =>
    have hasks : s.asksDiscard = true := by simp [asksDiscard, hdirty, hcollaboration]
    rw [hasks]
    exact .bind (.set _) (.pure _)

end Exact

/-! ## Waiting -/

/-- What survives the events that may happen. -/
def Survives (may : Session → Event → Prop) (I : Session → Ledger → Prop) : Prop :=
  ∀ s L e, may s e → I s L → I (e.apply s) (e.note s L)

theorem Survives.rely {I : Session → Ledger → Prop} (hI : Survives may I) {k : Pause}
    (h : Rely may k s L t K) (hs : I s L) : I t K := h.1.keeps hI hs

theorem Survives.queue {I : Session → Ledger → Prop} (hI : Survives may I)
    (h : Rely may .queue s L t K) (hs : I s L) : t.isIdle ∧ I t K := ⟨h.2 rfl, hI.rely h hs⟩

section Waiting

variable {γ : Type} {rely : Pause → Session → γ → Session → γ → Prop} {I : Session → γ → Prop} {g : γ}

theorem achieves_giveWay (hturn : ∀ {s g t h}, rely .turn s g t h → I s g → I t h) (n : Nat)
    (hs : I s g) : Achieves rely (giveWay n) s g fun r t h => r = .ok () ∧ I t h := by
  induction n generalizing s g with
  | zero => exact (achieves_pure _).mpr ⟨rfl, hs⟩
  | succ n ih =>
    exact achieves_bind.mpr ((achieves_pause .turn).mpr fun t h hk => ih (hturn hk hs))

/-- A session that waits for its queue goes on with nothing in it. -/
theorem achieves_drain (hqueue : ∀ {s g t h}, rely .queue s g t h → I s g → t.isIdle ∧ I t h)
    (hs : I s g) : Achieves rely drain s g fun r t h => r = .ok () ∧ t.isIdle ∧ I t h := by
  refine achieves_bind.mpr (achieves_get.mpr ?_)
  dsimp only
  by_cases hidle : s.isIdle
  · simp only [hidle]
    exact (achieves_pure _).mpr ⟨rfl, hidle, hs⟩
  · simp only [hidle]
    exact (achieves_pause _).mpr fun t h hk => ⟨rfl, hqueue hk hs⟩

theorem achieves_settle (hturn : ∀ {s g t h}, rely .turn s g t h → I s g → I t h)
    (hqueue : ∀ {s g t h}, rely .queue s g t h → I s g → t.isIdle ∧ I t h) (hs : I s g) :
    Achieves rely settle s g fun r t h => r = .ok () ∧ t.isIdle ∧ I t h := by
  refine achieves_bind.mpr (achieves_get.mpr ?_)
  refine achieves_bind.mpr ((achieves_giveWay hturn _ hs).imp ?_)
  rintro _ t h ⟨rfl, ht⟩
  exact achieves_drain hqueue ht

/-- A session that never gives way does not wait when it is idle. -/
theorem achieves_settle_of_idle (hticks : s.config.ticks = 0) (hidle : s.isIdle)
    {post : Except SyncError Unit → Session → γ → Prop} :
    Achieves rely settle s g post ↔ post (.ok ()) s g := by
  refine achieves_bind.trans (achieves_get.trans ?_)
  dsimp only
  rw [hticks]
  refine achieves_bind.trans ((achieves_pure _).trans ?_)
  refine achieves_bind.trans (achieves_get.trans ?_)
  simp only [hidle]
  exact achieves_pure _

end Waiting

/-- A session that waits alone for its writes has none left, and what survives writes holds then. -/
theorem perform_settle {I : Session → Prop} (hI : Survives may fun s _ => I s)
    (hwired : ∀ s, I s → s.Wired) (hcarry : ∀ s, may s .carry) (hs : I s) :
    (settle.perform s).1 = .ok () ∧ (settle.perform s).2.isIdle ∧ I (settle.perform s).2 := by
  have hattend : ∀ {k : Pause} {s : Session}, k ≠ .hook → I s →
      ∃ K, Rely may k s {} (attend k s) K := fun hk hs =>
    (hwired _ hs).attend_meanwhile hcarry (fun h => absurd h hk) {}
  have hturn : ∀ {s t : Session}, t = attend .turn s → I s → I t := by
    rintro s _ rfl hs
    obtain ⟨K, hK⟩ := hattend (k := .turn) (by decide) hs
    exact hI.rely hK hs
  have hqueue : ∀ {s t : Session}, t = attend .queue s → I s → t.isIdle ∧ I t := by
    rintro s _ rfl hs
    obtain ⟨K, hK⟩ := hattend (k := .queue) (by decide) hs
    exact hI.queue hK hs
  have hsettle : Achieves (fun k s (_ : Unit) t _ => t = attend k s) settle s () fun r t _ =>
      r = .ok () ∧ t.isIdle ∧ I t :=
    achieves_settle (I := fun s _ => I s) (fun hk => hturn hk) (fun hk => hqueue hk) hs
  exact achieves_attempt.mp hsettle

variable {I : Session → Ledger → Prop}

theorem achieves_pause_of_survives (hI : Survives may I) (k : Pause) (hs : I s L) :
    Achieves (Rely may) (pause k) s L fun r t K => r = .ok () ∧ I t K :=
  (achieves_pause k).mpr fun _ _ hk => ⟨rfl, hI.rely hk hs⟩

/-! ## Ending the work on a workbook -/

/-- What moreover survives another phase and a note of the hook. -/
structure SurvivesClosing (may : Session → Event → Prop) (I : Session → Ledger → Prop) : Prop where
  event : Survives may I
  phase : ∀ {s L} (p : Phase), I s L → I { s with phase := p } L
  hook : ∀ {s L h} (calls : List WorkbookId), s.hook = some h → I s L →
    I { s with hook := some { h with calls } } L

theorem SurvivesClosing.and {J : Session → Ledger → Prop} (hI : SurvivesClosing may I)
    (hJ : SurvivesClosing may J) : SurvivesClosing may fun s L => I s L ∧ J s L where
  event s L e hmay hs := ⟨hI.event s L e hmay hs.1, hJ.event s L e hmay hs.2⟩
  phase p hs := ⟨hI.phase p hs.1, hJ.phase p hs.2⟩
  hook calls hh hs := ⟨hI.hook calls hh hs.1, hJ.hook calls hh hs.2⟩

theorem survivesClosing_wired : SurvivesClosing may fun s _ => s.Wired where
  event _ _ e _ hs := hs.apply e
  phase _ hs := hs.congr rfl rfl rfl
  hook _ _ hs := hs.congr rfl rfl rfl

theorem survivesClosing_course (c : Course) :
    SurvivesClosing may fun s _ => s.course = { c with phase := s.phase } where
  event s L e _ hs := by
    have hphase : (e.apply s).phase = s.phase := congrArg Course.phase (course_apply s e)
    show (e.apply s).course = { c with phase := (e.apply s).phase }
    rw [course_apply, hphase]
    exact hs
  phase {s L} p hs := by
    show { s.course with phase := p } = { c with phase := p }
    rw [hs]
  hook {s L h} calls hh hs := by
    show { s.course with isHooked := true } = { c with phase := s.phase }
    have hhooked : s.course.isHooked = true := congrArg Option.isSome hh
    rw [← hhooked]
    exact hs

/-- When the hook is done, nothing is left to write. -/
theorem achieves_runHook (hI : SurvivesClosing may I) (w : ActiveWorkbook)
    (hphase : s.phase = .draining) (hidle : s.isIdle) (hs : I s L) :
    Achieves (Rely may) (runHook w) s L fun r t K => r = .ok () ∧ t.isIdle ∧
      (t.phase = .draining ∨ t.phase = .beforeClose) ∧ I t K := by
  refine achieves_bind.mpr (achieves_get.mpr ?_)
  dsimp only
  split
  · exact (achieves_pure _).mpr ⟨rfl, hidle, .inl hphase, hs⟩
  · next hook hhook =>
    split
    · exact (achieves_pure _).mpr ⟨rfl, hidle, .inl hphase, hs⟩
    · have hpermits : s.phase.Permits .beforeClose := by rw [hphase]; decide
      refine achieves_bind.mpr ((achieves_advance hpermits).mpr ?_)
      refine achieves_bind.mpr ((achieves_modify _).mpr ?_)
      -- the hook may enqueue more, so the queue is waited for once again
      have hJ : Survives may fun t K => t.phase = .beforeClose ∧ I t K := fun t K e hmay ht =>
        ⟨(congrArg Course.phase (course_apply t e)).trans ht.1, hI.event t K e hmay ht.2⟩
      have hs' := hI.hook (s := { s with phase := .beforeClose }) (hook.calls ++ [w.id]) hhook
        (hI.phase .beforeClose hs)
      refine achieves_bind.mpr ((achieves_pause_of_survives hJ .hook ⟨rfl, hs'⟩).imp ?_)
      rintro _ t K ⟨rfl, ht⟩
      refine (achieves_drain hJ.queue ht).imp ?_
      rintro r u M ⟨hr, hidle, hu⟩
      exact ⟨hr, hidle, .inr hu.1, hu.2⟩

/-- All work on the workbook before ends: nothing is left to write. -/
theorem achieves_conclude (hI : SurvivesClosing may I) (hphase : s.phase = .confirming)
    (hs : I s L) :
    Achieves (Rely may) conclude s L fun r t K => r = .ok s.active ∧ t.isIdle ∧
      (t.phase = .draining ∨ t.phase = .beforeClose) ∧
      t.course = { s.course with phase := t.phase } ∧ I t K := by
  -- the course is carried along to know which workbook is active after the wait
  have hJ : SurvivesClosing may _ := (survivesClosing_course s.course).and hI
  have hpermits : s.phase.Permits .draining := by rw [hphase]; decide
  refine achieves_bind.mpr ((achieves_advance hpermits).mpr ?_)
  have hsettle : Survives may fun t K => t.phase = .draining ∧
      t.course = { s.course with phase := t.phase } ∧ I t K := fun t K e hmay ht =>
    ⟨(congrArg Course.phase (course_apply t e)).trans ht.1, hJ.event t K e hmay ht.2⟩
  have hs' := hI.phase .draining hs
  refine achieves_bind.mpr
    (Achieves.imp (achieves_settle hsettle.rely hsettle.queue ⟨rfl, rfl, hs'⟩) ?_)
  rintro _ t K ⟨rfl, hidle, hdraining, ht⟩
  refine achieves_bind.mpr (achieves_get.mpr ?_)
  have hactive : t.active = s.active := congrArg Course.active ht.1
  dsimp only
  rw [hactive]
  cases hs : s.active with
  | none => exact achieves_bind.mpr ((achieves_pure _).mpr
      ((achieves_pure _).mpr ⟨rfl, hidle, .inl hdraining, ht⟩))
  | some w =>
    refine achieves_bind.mpr ((achieves_runHook hJ w hdraining hidle ht).imp ?_)
    rintro _ u M ⟨rfl, hidle, hphase, hu⟩
    exact (achieves_pure _).mpr ⟨rfl, hidle, hphase, hu⟩

/-! ## Requests -/

/-- Alone and not refused, a step is done between a note that it is under way and one that it is
not. -/
theorem achieves_exclusively {α γ : Type} {rely : Pause → Session → γ → Session → γ → Prop} {g : γ}
    {m : SessionM α} (hbusy : s.isBusy = false) {post : Except SyncError α → Session → γ → Prop} :
    Achieves rely (exclusively m) s g post ↔ Achieves rely m { s with isBusy := true } g
      fun r t i => post r { t with isBusy := false } i := by
  refine achieves_bind.trans (achieves_get.trans ?_)
  dsimp only
  rw [hbusy]
  refine Activity.ensures_bind.trans ((Activity.ensures_of_done rfl).trans ?_)
  refine Activity.ensures_bind.trans ?_
  refine forall_congr' fun r => forall_congr' fun t => forall_congr' fun i =>
    forall_congr' fun _ => ?_
  exact Activity.ensures_bind.trans ((Activity.ensures_of_done rfl).trans (Activity.ensures_pure r))

theorem atOnce_exclusively {α : Type} {m : SessionM α} (hbusy : s.isBusy = false)
    {r : Except SyncError α} {t : Session} (h : AtOnce m { s with isBusy := true } r t) :
    AtOnce (exclusively m) s r { t with isBusy := false } := by
  refine .bind .get ?_
  dsimp only
  rw [hbusy]
  show Progress.bind (m.run { s with isBusy := true }) _ = _
  rw [show m.run _ = _ from h]
  rfl

/-- The point of a change of workbook where all work on the workbook before has ended, and from
which on the rest of the change starts. -/
structure TurnsAt (may : Session → Event → Prop) (target : Target) (s : Session) (L : Ledger)
    (r : Except SyncError Reply) (t : Session) (K : Ledger) (m : Session) (M : Ledger) : Prop where
  concluded : ∃ prompts, Activity.Runs (Rely may) conclude.run
    { s with isBusy := true, phase := .confirming, prompts } L (.ok s.active) m M
  swapped : ∃ u, Activity.Runs (Rely may) (swap target s.active).run m M r u K ∧
    t = { u with isBusy := false }

/-- When a change of workbook comes to turn the store, nothing is left to write. -/
theorem TurnsAt.closing {target : Target} {r : Except SyncError Reply} {m : Session} {M : Ledger}
    (h : TurnsAt may target s L r t K m M) (hI : SurvivesClosing may I)
    (hs : ∀ prompts, I { s with isBusy := true, phase := .confirming, prompts } L) :
    m.isIdle ∧ (m.phase = .draining ∨ m.phase = .beforeClose) ∧
      m.course = { s.course with isBusy := true, phase := m.phase } ∧ I m M := by
  obtain ⟨prompts, hrun⟩ := h.concluded
  exact (achieves_conclude hI rfl (hs prompts) _ _ _ hrun).2

/-- A change of workbook ends as the rest of it can end. -/
theorem TurnsAt.ends {target : Target} {r : Except SyncError Reply} {m : Session} {M : Ledger}
    (h : TurnsAt may target s L r t K m M)
    {post : Except SyncError Reply → Session → Ledger → Prop}
    (hpost : Achieves (Rely may) (swap target s.active) m M post) :
    ∃ u, post r u K ∧ t = { u with isBusy := false } := by
  obtain ⟨u, hrun, ht⟩ := h.swapped
  exact ⟨u, hpost r u K hrun, ht⟩

section Switch

variable {γ : Type} {rely : Pause → Session → γ → Session → γ → Prop} {g : γ} {target : Target}

/-- Whoever declines a change of workbook goes back to the phase from which the request came. -/
theorem permits_confirming {p : Phase} (h : p = .idle ∨ p = .active) :
    p.Permits .confirming ∧ Phase.confirming.Permits p := by
  rcases h with rfl | rfl <;> decide

/-- A change of workbook that is not granted is declined at once. -/
theorem atOnce_declined (hbusy : s.isBusy = false) (hphase : s.phase = .idle ∨ s.phase = .active)
    (hgrants : s.grantsDiscard = false) :
    AtOnce (request (.switch target)) s (.ok .declined) { s with prompts := s.promptsAsked } := by
  obtain ⟨hconfirm, hresume⟩ := permits_confirming hphase
  have hsame : ∀ prompts, ({ s with isBusy := false, prompts } : Session) = { s with prompts } := by
    intro prompts
    rw [← hbusy]
  rw [← hsame]
  refine atOnce_exclusively hbusy (t := { s with isBusy := true, prompts := s.promptsAsked }) ?_
  refine .bind .get (.bind (atOnce_advance (s := { s with isBusy := true }) hconfirm) ?_)
  refine .bind atOnce_mayDiscard ?_
  rw [show grantsDiscard { s with isBusy := true, phase := .confirming } = false from hgrants]
  exact .bind (atOnce_advance hresume) (.pure _)

/-- A change of workbook that is granted ends the work on the workbook before, and turns to the
target. -/
theorem achieves_switch (hbusy : s.isBusy = false) (hphase : s.phase = .idle ∨ s.phase = .active)
    (hgrants : s.grantsDiscard = true) {post : Except SyncError Reply → Session → γ → Prop}
    (h : Achieves rely (conclude >>= swap target)
      { s with isBusy := true, phase := .confirming, prompts := s.promptsAsked } g
      fun r t i => post r { t with isBusy := false } i) :
    Achieves rely (request (.switch target)) s g post := by
  obtain ⟨hconfirm, -⟩ := permits_confirming hphase
  refine (achieves_exclusively hbusy).mpr ?_
  refine achieves_bind.mpr (achieves_get.mpr ?_)
  refine achieves_bind.mpr ((achieves_advance (s := { s with isBusy := true }) hconfirm).mpr ?_)
  refine atOnce_mayDiscard.achieves_bind.mpr ?_
  rw [show grantsDiscard { s with isBusy := true, phase := .confirming } = true from hgrants]
  exact h

end Switch

/-- A change of workbook is declined, which leaves no trace but in what was asked, or it comes to
turn the store. -/
theorem exists_turnsAt {target : Target} {r : Except SyncError Reply} (hbusy : s.isBusy = false)
    (hphase : s.phase = .idle ∨ s.phase = .active)
    (h : Activity.Runs (Rely may) (request (.switch target)).run s L r t K) :
    (r = .ok .declined ∧ K = L ∧ ∃ prompts, t = { s with prompts }) ∨
      ∃ m M, TurnsAt may target s L r t K m M := by
  cases hgrants : s.grantsDiscard with
  | false =>
    obtain ⟨rfl, rfl, rfl⟩ := (atOnce_declined hbusy hphase hgrants).eq_of_runs h
    exact .inl ⟨rfl, rfl, _, rfl⟩
  | true =>
    right
    suffices H : Achieves (Rely may) (request (.switch target)) s L fun r t K =>
        ∃ m M, TurnsAt may target s L r t K m M from H r t K h
    have htrue : SurvivesClosing may fun _ _ => True :=
      ⟨fun _ _ _ _ _ => trivial, fun _ _ => trivial, fun _ _ _ => trivial⟩
    refine achieves_switch hbusy hphase hgrants (achieves_bind.mpr
      (Achieves.imp (achieves_conclude htrue rfl trivial).and_runs ?_))
    rintro _ m M ⟨⟨rfl, -⟩, hconcluded⟩
    intro r u K hswapped
    exact ⟨m, M, ⟨_, hconcluded⟩, u, hswapped, rfl⟩

end SheetSync.Session
