import SheetSync.Proofs.Session.Outcome
/-!
Requests that come to nothing. One that is refused, declined or cancelled ends at once, and leaves
the session as it was but for what the user was asked. A save that the store does not carry out ends
with the store's error, after all writes that waited, and leaves everything else that nobody changed
meanwhile.

Main statement: `Session.request_without_effect`.
-/
namespace SheetSync

variable {may : Session → Event → Prop} {s s₀ t u m : Session} {L K M : Ledger}

/-- Whether a request was given up before it did anything. -/
def isRefusal : Except SyncError Reply → Bool
  | .ok .declined | .ok .cancelled | .error .noActiveWorkbook => true
  | _ => false

namespace Session

/-! ## Changes of workbook -/

theorem grantsDiscard_eq_false_iff : s.grantsDiscard = false ↔
    (s.document.isDirty = true ∧ s.collaboration = false) ∧ s.prompts.discard.1 = false := by
  simp [grantsDiscard, asksDiscard]

theorem promptsAsked_eq : s.promptsAsked =
    if s.document.isDirty = true ∧ s.collaboration = false then s.prompts.discard.2
    else s.prompts := by
  simp [promptsAsked, asksDiscard]

/-- What the rest of a change of workbook comes to is no refusal. -/
theorem ServicesFollow.isRefusal_eq_false {r : Except SyncError Reply} (h : ServicesFollow m r t) :
    isRefusal r = false := by
  cases r with
  | ok reply =>
    obtain ⟨⟨d, rfl⟩, -⟩ := h
    rfl
  | error e =>
    rcases h.1 with ⟨fault, rfl⟩ | hrestore
    · rfl
    · cases e with
      | restoreFailed => rfl
      | _ => cases hrestore

/-- A change of workbook that is granted is no refusal, and it asks once, or not at all. -/
theorem AtRest.granted (hs : s.AtRest) (hgrants : s.grantsDiscard = true) {target : Target}
    {reply : Except SyncError Reply}
    (h : Activity.Runs (Rely may) (Session.request (.switch target)).run s L reply t K) :
    isRefusal reply = false ∧
      ((∀ u e, may u e → (e.apply u).prompts = u.prompts) → t.prompts = s.promptsAsked) := by
  have hI : SurvivesClosing may fun u _ =>
      (∀ u e, may u e → (e.apply u).prompts = u.prompts) → u.prompts = s.promptsAsked :=
    ⟨fun u _ e he hu hmay => (hmay u e he).trans (hu hmay), fun _ hu => hu, fun _ _ hu => hu⟩
  have hgranted := hs.achieves_granted hgrants hI.event
    (fun hu hprompts _ _ hmay => hprompts.trans (hu hmay))
    ((achieves_conclude hI rfl fun _ => rfl).imp fun _ _ _ hm => hm.2.2.2.2) _ _ _ h
  exact ⟨hgranted.2.isRefusal_eq_false, hgranted.1⟩

/-- A change of workbook is declined at once, just if it is not granted. -/
theorem AtRest.switch_outcome (hs : s.AtRest) {target : Target} {reply : Except SyncError Reply}
    (h : Activity.Runs (Rely may) (Session.request (.switch target)).run s L reply t K) :
    (s.grantsDiscard = false ∧ reply = .ok .declined ∧
      AtOnce (Session.request (.switch target)) s (.ok .declined)
        { s with prompts := s.promptsAsked }) ∨
    (s.grantsDiscard = true ∧ isRefusal reply = false ∧
      ((∀ u e, may u e → (e.apply u).prompts = u.prompts) → t.prompts = s.promptsAsked)) := by
  cases hgrants : s.grantsDiscard with
  | false =>
    have hdeclined : AtOnce (Session.request (.switch target)) s _ _ :=
      atOnce_declined hs.isBusy hs.stable.phase_eq hgrants
    exact .inl ⟨rfl, (hdeclined.eq_of_runs h).1, hdeclined⟩
  | true => exact .inr ⟨rfl, hs.granted hgrants h⟩

/-! ## Saves that fail -/

/-- Whether what others may do while the session saves leaves a part of it as it is. -/
def Spares (may : Session → Event → Prop) {β : Type} (f : Session → β) : Prop :=
  ∀ u e, may u e → u.phase = .saving → f (e.apply u) = f u

/-- What a save that the store did not carry out leaves, where others leave it. -/
structure Unsaved (may : Session → Event → Prop) (s t : Session) : Prop where
  phase : t.phase = .active
  course : t.course = s.course
  noted : t.noted = s.noted
  forwards : t.document.forwards = s.document.forwards
  hook : Spares may (·.hook) → t.hook = s.hook
  caches : Spares may (·.caches) → t.caches = s.caches
  refresh : Spares may (·.refresh) → t.refresh = s.refresh
  isDirty : Spares may (·.document.isDirty) → t.document.isDirty = s.document.isDirty
  path : Spares may (·.store.workbook.map Workbook.path) →
    t.store.workbook.map Workbook.path = s.store.workbook.map Workbook.path

/-- Writes that are carried out leave all that a save could touch. -/
theorem Unsaved.of_carry (h : Unsaved may s t)
    (hmay : ∀ u e, may u e → u.phase = .saving → e = .carry) :
    t.hook = s.hook ∧ t.caches = s.caches ∧ t.refresh = s.refresh ∧
      t.document.isDirty = s.document.isDirty ∧
      t.store.workbook.map Workbook.path = s.store.workbook.map Workbook.path := by
  have hspares : ∀ {β : Type} {f : Session → β}, (∀ u, f (Event.carry.apply u) = f u) →
      Spares may f := by
    intro β f hcarry u e he hphase
    rw [hmay u e he hphase]
    exact hcarry u
  exact ⟨h.hook (hspares fun _ => rfl), h.caches (hspares fun _ => rfl),
    h.refresh (hspares fun _ => rfl), h.isDirty (hspares fun _ => rfl),
    h.path (hspares path_carry)⟩

theorem SavesAt.unsaved {path : String} {prompts : Prompts} {fault : StoreError} (hs : s.AtRest)
    (hphase : s.phase = .active)
    (h : SavesAt may path { s with isBusy := true, prompts, phase := .saving } L (.error fault) u K
      m M) :
    Unsaved may s { u with phase := .active, isBusy := false } := by
  have hcourse : u.course = { s.course with isBusy := true, phase := .saving } :=
    h.leaves rfl (f := (·.course)) (fun u e _ _ => course_apply u e) fun _ _ _ => rfl
  have hcourse : { u.course with phase := .active, isBusy := false } = s.course := by
    rw [hcourse]
    show ({ s.course with phase := .active, isBusy := false } : Course) = s.course
    rw [← hphase, ← hs.isBusy]
    rfl
  have hwired : u.Wired := h.keeps (I := fun u _ => u.Wired)
    ⟨fun hk hu => hk.1.keeps (I := fun u _ => u.Wired) (fun _ _ e _ hu => hu.apply e) hu,
      fun _ hu => hu.congr rfl rfl rfl, fun hu => hu.congr rfl rfl rfl⟩
    (fun _ hu => hu.congr rfl rfl rfl) (hs.wired.congr rfl rfl rfl)
  refine ⟨rfl, hcourse, ?_, ?_, ?_, ?_, ?_, ?_, ?_⟩
  · exact h.leaves rfl (f := (·.noted)) (fun u e _ _ => noted_apply u e) fun _ _ _ => rfl
  · -- the document's changes go to the same listener
    show u.document.forwards = s.document.forwards
    rw [hwired.forwards, hs.wired.forwards]
    exact congrArg (·.sync.toList) hcourse
  · exact fun hspares => h.leaves rfl (f := (·.hook)) hspares fun _ _ _ => rfl
  · exact fun hspares => h.leaves rfl (f := (·.caches)) hspares fun _ _ _ => rfl
  · exact fun hspares => h.leaves rfl (f := (·.refresh)) hspares fun _ _ _ => rfl
  · exact fun hspares => h.leaves rfl (f := (·.document.isDirty)) hspares fun _ _ _ => rfl
  · exact fun hspares => h.leaves rfl (f := fun u => u.store.workbook.map Workbook.path) hspares
      fun _ _ _ => rfl

/-- A save is given up at once, or it waits for the writes and tells the store to save. -/
theorem AtRest.save_outcome (hs : s.AtRest) {r : Request} (hr : ∀ target, r ≠ .switch target)
    {reply : Except SyncError Reply}
    (h : Activity.Runs (Rely may) (Session.request r).run s L reply t K) :
    (isRefusal reply = true ∧ ∃ prompts, AtOnce (Session.request r) s reply { s with prompts }) ∨
      isRefusal reply = false ∧ ∃ path prompts result u m M,
        SavesAt may path { s with isBusy := true, prompts, phase := .saving } L result u K m M ∧
        reply = (result.mapError .store).map (fun _ => .saved path) ∧
        ∀ fault, result = .error fault → Unsaved may s t := by
  obtain hactive | ⟨w, hactive⟩ := Option.eq_none_or_eq_some s.active
  · have hnone := atOnce_noActiveWorkbook hs.isBusy hactive hr
    obtain ⟨rfl, -⟩ := hnone.eq_of_runs h
    exact .inl ⟨rfl, s.prompts, hnone⟩
  have hphase := hs.phase_eq_active hactive
  rcases hs.saves_cases hactive hr h with
    hcancelled | ⟨path, prompts, result, u, m, M, hsaves, rfl, rfl⟩
  · obtain ⟨rfl, -⟩ := hcancelled.eq_of_runs h
    exact .inl ⟨rfl, _, hcancelled⟩
  refine .inr ⟨by cases result <;> rfl, path, prompts, result, u, m, M, hsaves, rfl, ?_⟩
  rintro fault rfl
  exact hsaves.unsaved hs hphase

/-- While a request is under way, every other one is refused at once. -/
theorem atOnce_of_busy (hbusy : s.isBusy = true) (r : Request) :
    AtOnce (request r) s (.error .transitionInProgress) s := by
  refine .bind .get ?_
  dsimp only
  rw [hbusy]
  exact .bind_error (.throw _)

/-- What is refused, declined or cancelled ends at once, and leaves all but the prompts. -/
theorem AtRest.atOnce_of_isRefusal (hs : s.AtRest) {r : Request} {reply : Except SyncError Reply}
    (h : Activity.Runs (Rely may) (Session.request r).run s L reply t K)
    (hrefusal : isRefusal reply = true) :
    ∃ prompts, AtOnce (Session.request r) s reply { s with prompts } := by
  have hsave : (∀ target, r ≠ .switch target) →
      ∃ prompts, AtOnce (Session.request r) s reply { s with prompts } := by
    intro hr
    rcases hs.save_outcome hr h with ⟨-, hatOnce⟩ | ⟨hreply, -⟩
    · exact hatOnce
    · exact absurd (hreply.symm.trans hrefusal) Bool.false_ne_true
  cases r with
  | save => exact hsave (by simp)
  | saveAs path => exact hsave (by simp)
  | switch target =>
    rcases hs.switch_outcome h with ⟨-, rfl, hdeclined⟩ | ⟨-, hreply, -⟩
    · exact ⟨_, hdeclined⟩
    · exact absurd (hreply.symm.trans hrefusal) Bool.false_ne_true

/-- A request that is refused, declined or cancelled ends at once, without a command to the store
and without a write that is waited for or added, and it leaves all of the session but the prompts. A
change of workbook is declined just if the user is asked and says no, and asks just if the document
has changes that nobody else holds. A save that is neither refused nor cancelled waits for the
writes and tells the store to save once; if the store fails, its error is the answer and all else is
left, where others leave it. While a request is under way, every other one is refused at once. -/
theorem request_without_effect {r : Request} {reply : Except SyncError Reply} (hnew : s₀.IsNew)
    (hrun : Run may s₀ s L) (h : Activity.Runs (Rely may) (request r).run s L reply t K) :
    (isRefusal reply →
      AtOnce (request r) s reply t ∧ K = L ∧ ∃ prompts, t = { s with prompts }) ∧
    (∀ target, r = .switch target →
      (reply = .ok .declined ↔
        (s.document.isDirty = true ∧ s.collaboration = false) ∧ s.prompts.discard.1 = false) ∧
      ((reply = .ok .declined ∨ ∀ u e, may u e → (e.apply u).prompts = u.prompts) → t.prompts =
        if s.document.isDirty = true ∧ s.collaboration = false then s.prompts.discard.2
        else s.prompts)) ∧
    ((∀ target, r ≠ .switch target) → isRefusal reply = false → ∃ path prompts result u m M,
      SavesAt may path { s with isBusy := true, prompts, phase := .saving } L result u K m M ∧
      reply = (result.mapError .store).map (fun _ => .saved path) ∧
      ∀ fault, result = .error fault → Unsaved may s t) ∧
    ∀ u : Session, u.isBusy = true → AtOnce (request r) u (.error .transitionInProgress) u := by
  have hs := hrun.atRest hnew.atRest
  refine ⟨fun hrefusal => ?_, ?_, fun hr hrefusal => ?_, fun u hbusy => atOnce_of_busy hbusy r⟩
  · obtain ⟨prompts, hatOnce⟩ := hs.atOnce_of_isRefusal h hrefusal
    obtain ⟨-, rfl, rfl⟩ := hatOnce.eq_of_runs h
    exact ⟨hatOnce, rfl, prompts, rfl⟩
  · rintro target rfl
    rw [← promptsAsked_eq, ← grantsDiscard_eq_false_iff]
    rcases hs.switch_outcome h with ⟨hgrants, hreply, hdeclined⟩ | ⟨hgrants, hreply, hprompts⟩
    · obtain ⟨-, rfl, -⟩ := hdeclined.eq_of_runs h
      exact ⟨iff_of_true hreply hgrants, fun _ => rfl⟩
    · have hgranted : reply ≠ .ok .declined := by
        rintro rfl
        cases hreply
      exact ⟨iff_of_false hgranted (by simp [hgrants]), fun h => hprompts (h.resolve_left hgranted)⟩
  · rcases hs.save_outcome hr h with ⟨hreply, -⟩ | ⟨-, hsaves⟩
    · exact absurd (hrefusal.symm.trans hreply) Bool.false_ne_true
    · exact hsaves

/-- Only writes are carried out, and the document is changed while nothing is under way. -/
def Editing (s : Session) (e : Event) : Prop :=
  e = .carry ∨ s.phase = .active ∧ e = .act oneChange

/-- A save that the store refuses leaves a changed document unsaved. -/
theorem refused_save_without_effect : ∃ s L t K fault,
    Run Editing (.on { watch := some { saveFails := true } }) s L ∧
    Activity.Runs (Rely Editing) (request (.saveAs (some "a"))).run s L (.error (.store fault)) t K ∧
    t.phase = .active ∧ t.active = s.active ∧ t.document.isDirty = true ∧ t.caches = s.caches ∧
    t.store.workbook.map Workbook.path = s.store.workbook.map Workbook.path := by
  have hends : ((request (.switch .blank)).run
      (.on { watch := some { saveFails := true } })).end?.any fun first =>
        let s := Event.carry.apply ((Event.act oneChange).apply first.2)
        (first.2.phase == .active && s.document.isDirty) &&
          ((request (.saveAs (some "a"))).run s).end?.any fun second => isStoreFault second.1 := by
    decide +kernel
  obtain ⟨⟨r, s⟩, hs, hends⟩ := (Option.any_eq_true _ _).mp hends
  obtain ⟨hstate, hends⟩ := Bool.and_eq_true_iff.mp hends
  obtain ⟨hphase, hdirty⟩ := Bool.and_eq_true_iff.mp hstate
  obtain ⟨⟨r', t⟩, ht, hfault⟩ := (Option.any_eq_true _ _).mp hends
  obtain ⟨fault, rfl⟩ := exists_of_isStoreFault hfault
  have hstart : Run Editing _ s _ := Run.of_end? hs
  obtain ⟨L, hrun⟩ : ∃ L, Run Editing _ _ L :=
    ⟨_, (hstart.event (.act oneChange) (.inr ⟨eq_of_beq hphase, rfl⟩)).event .carry (.inl rfl)⟩
  have hreq : Activity.Runs (Rely Editing) _ _ L _ t L := Progress.runs_of_end? ht
  obtain ⟨path, prompts, result, u, m, M, -, hreply, hunsaved⟩ :=
    (request_without_effect (isNew_on _) hrun hreq).2.2.1 (by rintro target ⟨⟩) rfl
  cases result with
  | ok => cases hreply
  | error fault' =>
    have hunsaved := hunsaved fault' rfl
    obtain ⟨-, hcaches, -, hisDirty, hpath⟩ := hunsaved.of_carry fun u e he hsaving => by
      rcases he with rfl | ⟨hactive, -⟩
      · rfl
      · rw [hsaving] at hactive
        cases hactive
    exact ⟨_, L, t, L, fault, hrun, hreq, hunsaved.phase, congrArg Course.active hunsaved.course,
      hisDirty.trans hdirty, hcaches, hpath⟩

end Session
end SheetSync
