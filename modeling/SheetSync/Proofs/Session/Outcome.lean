import SheetSync.Proofs.Session.Failure
/-!
What requests come to that do not end at once, by what is left when they end. A save waits for all
writes and tells the store to save, once; a change of workbook asks nothing, and restarts the
services once if it succeeds. Main statements: `AtRest.saves_cases` for requests to save, and
`AtRest.achieves_granted` for changes of workbook.
-/
namespace SheetSync.Session

variable {may : Session → Event → Prop} {s t : Session} {L K : Ledger}

/-- The workbooks that the hook was called for, if there is a hook. -/
def noted (s : Session) : Option (List WorkbookId) := s.hook.map (·.calls)

@[simp] theorem noted_apply (s : Session) (e : Event) : (e.apply s).noted = s.noted := by
  cases e with
  | hook action fails => simp [Event.apply, noted, Function.comp_def]
  | _ => rfl

/-! ## Saves -/

/-- A save to a path from where all writes are to be carried out on: in a state `m` none is left,
and the store is told to save, which has a result. -/
structure SavesAt (may : Session → Event → Prop) (path : String) (s : Session) (L : Ledger)
    (result : Except StoreError Unit) (t : Session) (K : Ledger) (m : Session) (M : Ledger) :
    Prop where
  settled : Activity.Runs (Rely may) settle.run s L (.ok ()) m M
  idle : m.isIdle
  told : Activity.Runs (Rely may) (onStore (Store.saveWorkbook (some path)).run) m M result t K

/-- What others leave is left when all writes are carried out. -/
theorem SavesAt.keeps_settled {path : String} {result : Except StoreError Unit} {m : Session}
    {M : Ledger} (h : SavesAt may path s L result t K m M) {I : Session → Ledger → Prop}
    (hI : Survives may I) (hs : I s L) : I m M :=
  (achieves_settle hI.rely hI.queue hs _ _ _ h.settled).2.2

/-- What is known of a session all along a save to a path is known at the end of it, unless the
workbook has the path now. -/
theorem SavesAt.keeps {path : String} {result : Except StoreError Unit} {m : Session} {M : Ledger}
    (h : SavesAt may path s L result t K m M) {I : Session → Ledger → Prop}
    (hI : Lasting (Rely may) (fun call => call = .saveWorkbook (some path)) I)
    (hfiles : ∀ {s L} (files : FileTree), I s L → I { s with store := { s.store with files } } L)
    (hs : I s L) :
    match result with
    | .ok _ => ∃ u target, I u K ∧ t = { u with store := { u.store with
        workbook := u.store.workbook.map ({ · with path := some target }) } }
    | .error _ => I t K := by
  have hsettle : Survives may I := fun u N e hmay hu =>
    hI.rely (k := .turn) ⟨Meanwhile.none.event e hmay, fun h => by cases h⟩ hu
  have hm : I m M := h.keeps_settled hsettle hs
  have hsaved := hI.saveWorkbook hfiles rfl hm result t K h.told
  cases result with
  | ok => exact hsaved
  | error => exact hsaved

/-- What others leave as it is while the session saves, and what does not depend on what the store
logs and on its files, is left, unless the workbook has the path now. -/
theorem SavesAt.leaves {path : String} {result : Except StoreError Unit} {m : Session} {M : Ledger}
    (h : SavesAt may path s L result t K m M) (hphase : s.phase = .saving) {β : Type}
    {f : Session → β} (hevent : ∀ u e, may u e → u.phase = .saving → f (e.apply u) = f u)
    (hstore : ∀ u watch files, f { u with store := { u.store with watch, files } } = f u) :
    match result with
    | .ok _ => ∃ u target, f u = f s ∧ t = { u with store := { u.store with
        workbook := u.store.workbook.map ({ · with path := some target }) } }
    | .error _ => f t = f s := by
  have hphased : ∀ (u : Session) (e : Event), (e.apply u).phase = u.phase := fun u e =>
    congrArg Course.phase (course_apply u e)
  have hevents : Survives may fun u _ => u.phase = .saving ∧ f u = f s := fun u _ e hmay hu =>
    ⟨(hphased u e).trans hu.1, (hevent u e hmay hu.1).trans hu.2⟩
  have hI : Lasting (Rely may) (fun call => call = .saveWorkbook (some path)) fun u _ =>
      u.phase = .saving ∧ f u = f s :=
    ⟨hevents.rely, fun {u _ _} _ hu => ⟨hu.1, (hstore u _ u.store.files).trans hu.2⟩,
      fun {u _} hu => ⟨hu.1, (hstore u _ u.store.files).trans hu.2⟩⟩
  have hkept := h.keeps hI
    (fun {u _} files hu => ⟨hu.1, (hstore u u.store.watch files).trans hu.2⟩) ⟨hphase, rfl⟩
  cases result with
  | error => exact hkept.2
  | ok =>
    obtain ⟨u, target, hu, ht⟩ := hkept
    exact ⟨u, target, hu.2, ht⟩

/-- Services that were restarted, for some workbooks one after the other. -/
def restarted (ids : List WorkbookId) (services : List Service) : List Service :=
  services.map fun v => { v with restarts := v.restarts ++ ids }

@[simp] theorem restarted_nil (services : List Service) : restarted [] services = services := by
  simp [restarted]

theorem restarted_restarted (ids ids' : List WorkbookId) (services : List Service) :
    restarted ids' (restarted ids services) = restarted (ids ++ ids') services := by
  simp [restarted, Function.comp_def]

/-- The session whose content is saved. -/
def written (s : Session) : Session := { s with toLink := s.toLink.perform .markSaved }

/-- The session whose workbook `w` goes by a path from now on. -/
def renamed (w : ActiveWorkbook) (path : String) (s : Session) : Session :=
  { s with
    refresh := (s.refresh.migrate w.id (.ofPath path)).2
    hookFor := s.hookFor.map fun _ => .ofPath path
    active := some { w with descriptor := w.descriptor.withPath path, id := .ofPath path }
    services := restarted [.ofPath path] s.services }

/-- The session that has told its store to save. -/
def told (w : ActiveWorkbook) (r : Request) (path : String) (result : Except StoreError Unit)
    (s : Session) : Session :=
  match result with
  | .ok _ => if r.isInPlace w then s.written else s.written.renamed w path
  | .error _ => s

theorem told_of_inPlace {w : ActiveWorkbook} {r : Request} (h : r.isInPlace w) (path : String)
    (u : Unit) (s : Session) : s.told w r path (.ok u) = s.written := if_pos h

theorem told_of_not_inPlace {w : ActiveWorkbook} {r : Request} (h : r.isInPlace w = false)
    (path : String) (u : Unit) (s : Session) :
    s.told w r path (.ok u) = s.written.renamed w path := if_neg (by simp [h])

theorem achieves_writeOut {path : String} {post : Except SyncError Unit → Session → Ledger → Prop}
    (h : ∀ result u K m M, SavesAt may path s L result u K m M →
      match result with
      | .ok _ => post (.ok ()) u.written K
      | .error fault => post (.error (.store fault)) u K) :
    Achieves (Rely may) (writeOut path) s L post := by
  have htrue : Survives may fun _ _ => True := fun _ _ _ _ _ => trivial
  refine achieves_bind.mpr
    (Achieves.imp (achieves_settle htrue.rely htrue.queue trivial).and_runs ?_)
  rintro _ m M ⟨⟨rfl, hidle, -⟩, hsettled⟩
  refine achieves_bind.mpr (achieves_command.mpr fun result u K htold => ?_)
  have hend := h result u K m M ⟨hsettled, hidle, htold⟩
  cases result with
  | error fault => exact hend
  | ok => exact (achieves_modify _).mpr hend

/-- An attempt to save waits for all writes and tells the store to save; only when the store has
saved is more done. -/
theorem achieves_attempted (w : ActiveWorkbook) (r : Request) (path : String) :
    Achieves (Rely may) (attempt w r path) s L fun a t K => ∃ result u m M,
      SavesAt may path s L result u K m M ∧ a = result.mapError .store ∧
        t = u.told w r path result := by
  unfold attempt
  split
  · next hinPlace =>
    refine achieves_writeOut fun result u K m M hsaves => ?_
    cases result with
    | error fault => exact ⟨_, u, m, M, hsaves, rfl, rfl⟩
    | ok => exact ⟨_, u, m, M, hsaves, rfl, (told_of_inPlace hinPlace ..).symm⟩
  · next hinPlace =>
    refine achieves_bind.mpr (achieves_writeOut fun result u K m M hsaves => ?_)
    cases result with
    | error fault => exact ⟨_, u, m, M, hsaves, rfl, rfl⟩
    | ok =>
      refine achieves_bind.mpr ((achieves_modify _).mpr ((achieves_modify _).mpr ?_))
      exact ⟨_, u, m, M, hsaves, rfl, (told_of_not_inPlace (by simpa using hinPlace) ..).symm⟩

/-- A save of an active workbook is cancelled at once, or all writes are carried out and the store
is told to save. -/
theorem AtRest.saves_cases (hs : s.AtRest) {w : ActiveWorkbook} (hactive : s.active = some w)
    {r : Request} (hr : ∀ target, r ≠ .switch target) {reply : Except SyncError Reply}
    (h : Activity.Runs (Rely may) (Session.request r).run s L reply t K) :
    AtOnce (Session.request r) s (.ok .cancelled) { s with prompts := s.prompts.choosePath.2 } ∨
      ∃ path prompts result u m M,
        SavesAt may path { s with isBusy := true, prompts, phase := .saving } L result u K m M ∧
        reply = (result.mapError .store).map (fun _ => .saved path) ∧
        t = { u.told w r path result with phase := .active, isBusy := false } := by
  rcases save_cases (Rely may) L hs.isBusy hactive hr with hcancelled | ⟨path, prompts, -, hsaved⟩
  · exact .inl hcancelled
  refine .inr ⟨path, prompts, ?_⟩
  refine hsaved (fun reply t K => ∃ result u m M,
    SavesAt may path { s with isBusy := true, prompts, phase := .saving } L result u K m M ∧
      reply = (result.mapError .store).map (fun _ => .saved path) ∧
      t = { u.told w r path result with phase := .active, isBusy := false }) ?_ _ _ _ h
  refine achieves_saving_of_active (s := { s with isBusy := true, prompts })
    (hs.phase_eq_active hactive) ((achieves_attempted w r path).imp ?_)
  rintro _ _ N ⟨result, u, m, M, hsaves, rfl, rfl⟩
  refine ⟨?_, result, u, m, M, hsaves, rfl, rfl⟩
  have hleft := hsaves.leaves rfl (f := (·.phase))
    (fun u e _ _ => congrArg Course.phase (course_apply u e)) fun _ _ _ => rfl
  cases result with
  | error fault => exact hleft
  | ok =>
    obtain ⟨v, target, hv, rfl⟩ := hleft
    cases hinPlace : r.isInPlace w with
    | true =>
      rw [told_of_inPlace hinPlace]
      exact hv
    | false =>
      rw [told_of_not_inPlace hinPlace]
      exact hv

/-! ## Beside a change of workbook -/

/-- How the services are left by the rest of a change of workbook that met them in a state `m`. -/
def ServicesFollow (m : Session) (r : Except SyncError Reply) (t : Session) : Prop :=
  match r with
  | .ok reply => (∃ d, reply = .completed d) ∧
      ∃ w, t.active = some w ∧ t.services = restarted [w.id] m.services
  | .error e => ((∃ fault, e = .store fault) ∨ e.IsRestoreFailed) ∧ t.services = m.services

/-- From its turning point on, a change of workbook asks nothing and calls no hook, and it restarts
the services once if it succeeds. -/
theorem achieves_swap_beside {m : Session} {M : Ledger} {I : Session → Ledger → Prop}
    (hI : Survives may I)
    (hbeside : ∀ {s t L}, I s L → t.prompts = s.prompts → t.hook = s.hook →
      t.refresh = s.refresh → I t L)
    {target : Target} (hm : m.Wired) (hidle : m.isIdle)
    (hphase : m.phase = .draining ∨ m.phase = .beforeClose) (previous : Option ActiveWorkbook)
    (hs : I m M) :
    Achieves (Rely may) (swap target previous) m M fun r t K => I t K ∧ ServicesFollow m r t := by
  have hJ : SurvivesSwap may (fun _ => True) fun s L => Apart m s ∧ I s L :=
    .and_apart m (fun s L e hmay _ hs => hI s L e hmay hs) (fun _ hs => hbeside hs rfl rfl rfl)
      (fun hs => hbeside hs rfl rfl rfl) (fun hs => hbeside hs rfl rfl rfl)
      (fun _ hs => hbeside hs rfl rfl rfl) (fun hs => hbeside hs rfl rfl rfl)
  have hrebound : ∀ {s L w e}, (∃ fault, e = .store fault) → Apart m s → I s L →
      I (s.rebound w) L ∧ ServicesFollow m (.error e) (s.rebound w) := fun he hapart hs =>
    ⟨hbeside hs rfl rfl rfl, .inl he, hapart.services⟩
  have hreleased : ∀ {s L e}, (∃ fault, e = .store fault) ∨ e.IsRestoreFailed → Apart m s →
      I s L → I s.released L ∧ ServicesFollow m (.error e) s.released := fun he hapart hs =>
    ⟨hbeside hs rfl rfl rfl, he, hapart.services⟩
  refine achieves_swap hphase (fun s L => Apart m s ∧ I s L) (fun _ s L => Apart m s ∧ I s L)
    (fun _ r _ => AnyContent r) hJ ⟨.start hm hidle _, hbeside hs rfl rfl rfl⟩ ?_ ?_ (fun _ => hJ)
    (fun _ => trivial) ?_ ?_ ?_
  · intro fault s L _ hs
    have hs := hJ.phase (p := .rollingBack) rfl hs
    cases previous with
    | none => exact achieves_recover_none false ⟨_, rfl, hreleased (.inl ⟨fault, rfl⟩) hs.1 hs.2⟩
    | some w => exact achieves_recover_unturned ⟨_, rfl, hrebound ⟨fault, rfl⟩ hs.1 hs.2⟩
  · rintro d s _ L hs (⟨b, rfl, -⟩ | ⟨rfl, -⟩)
    · exact ⟨hs.1.withStore _, hbeside hs.2 rfl rfl rfl⟩
    · exact hs
  · intro d s L hs hloading
    exact achieves_loadContent hJ (fun _ _ => trivial) hs hloading
  · intro d e s L hs hfault
    have hfault := hfault e rfl
    have hs := hJ.phase (p := .rollingBack) rfl hs
    cases previous with
    | none => exact achieves_recover_none true ⟨_, rfl, hreleased (.inl hfault) hs.1 hs.2⟩
    | some w =>
      refine achieves_recover_turned (Achieves.imp (achieves_restoreStore hJ ?_ (fun _ => trivial)
        (fun _ _ => trivial) (hJ.log (L := L) trivial hs)) ?_)
      · exact fun b hs => ⟨hs.1.withStore _, hbeside hs.2 rfl rfl rfl⟩
      · rintro (e' | _) t K ht
        · exact ⟨_, rfl, hreleased (.inr trivial) ht.1 ht.2⟩
        · exact ⟨_, rfl, hrebound hfault ht.1 ht.2⟩
  · rintro d s L content t ⟨hapart, hs⟩ - ⟨signature, -, id, caches, tokens, -, -, rfl⟩
    refine ⟨hbeside hs rfl rfl rfl, ⟨d, rfl⟩, _, rfl, ?_⟩
    rw [← hapart.services]
    rfl

/-- A change of workbook that is granted is known by what holds when the work on the workbook before
has ended. -/
theorem AtRest.achieves_granted (hs : s.AtRest) (hgrants : s.grantsDiscard = true) {target : Target}
    {I : Session → Ledger → Prop} (hI : Survives may I)
    (hbeside : ∀ {s t L}, I s L → t.prompts = s.prompts → t.hook = s.hook →
      t.refresh = s.refresh → I t L)
    (hconclude : Achieves (Rely may) conclude
      { s with isBusy := true, phase := .confirming, prompts := s.promptsAsked } L
      fun _ m M => I m M) :
    Achieves (Rely may) (Session.request (.switch target)) s L fun r t K =>
      I t K ∧ ServicesFollow s r t := by
  refine achieves_switch hs.isBusy hs.stable.phase_eq hgrants (achieves_bind.mpr (Achieves.imp
    ((achieves_conclude survivesClosing_wired rfl ?_).and hconclude) ?_))
  · exact hs.wired.congr rfl rfl rfl
  rintro _ m M ⟨⟨rfl, hidle, hphase, hcourse, hm⟩, hI'⟩
  have hservices : m.services = s.services := congrArg Course.services hcourse
  refine (achieves_swap_beside hI hbeside hm hidle hphase _ hI').imp ?_
  rintro r u N ⟨hu, hfollows⟩
  refine ⟨hbeside hu rfl rfl rfl, ?_⟩
  cases r with
  | error e => exact ⟨hfollows.1, hfollows.2.trans hservices⟩
  | ok =>
    obtain ⟨hd, w, hw, hrestarted⟩ := hfollows
    refine ⟨hd, w, hw, ?_⟩
    rw [← hservices]
    exact hrestarted

/-- What is granted is not declined. -/
theorem ServicesFollow.ne_declined {m : Session} {r : Except SyncError Reply} {t : Session}
    (h : ServicesFollow m r t) : r ≠ .ok .declined := by
  rintro rfl
  obtain ⟨⟨d, hd⟩, -⟩ := h
  cases hd

end SheetSync.Session
