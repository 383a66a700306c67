import SheetSync.Proofs.Session.Outcome
/-!
What follows the active workbook of a session: the hook, which is called for each workbook that is
closed, and the services, which are restarted for each that becomes active under a new identity. An
onlooker who writes down each request with the workbook before and after it can tell all calls of
the hook and all restarts from that.

Main statement: `Session.hook_and_services_follow`.
-/
namespace SheetSync

variable {may : Session → Event → Prop} {s s₀ t : Session} {L K : Ledger}

namespace Session

/-! ## The hook -/

theorem survives_noted (calls : Option (List WorkbookId)) :
    Survives may fun s _ => s.noted = calls := fun s _ e _ hs => (noted_apply s e).trans hs

/-- The hook is called for the workbook that it is installed for. -/
theorem achieves_runHook_noted {w : ActiveWorkbook} (hphase : s.phase = .draining)
    (hhook : s.hookFor = if s.hook.isSome then some w.id else none) :
    Achieves (Rely may) (runHook w) s L fun _ t _ => t.noted = s.noted.map (· ++ [w.id]) := by
  refine achieves_bind.mpr (achieves_get.mpr ?_)
  dsimp only
  cases hs : s.hook with
  | none => exact (achieves_pure _).mpr (by simp [noted, hs])
  | some hook =>
    rw [hs] at hhook
    rw [hhook]
    simp only [Option.isSome_some, if_true, ne_eq, not_true_eq_false, if_false]
    have hpermits : s.phase.Permits .beforeClose := by rw [hphase]; decide
    refine achieves_bind.mpr ((achieves_advance hpermits).mpr ?_)
    refine achieves_bind.mpr ((achieves_modify _).mpr ?_)
    -- from the call on, nobody changes what the hook noted
    have hI : Survives may fun t _ => t.noted = s.noted.map (· ++ [w.id]) := survives_noted _
    refine achieves_bind.mpr (Achieves.imp (achieves_pause_of_survives hI .hook ?_) ?_)
    · simp [noted, hs]
    rintro _ t K ⟨rfl, ht⟩
    exact (achieves_drain hI.queue ht).imp fun _ _ _ hu => hu.2.2

/-- When the work on a workbook ends, the hook has been called for it once. -/
theorem achieves_conclude_noted (hphase : s.phase = .confirming) (hbound : s.course.IsBound) :
    Achieves (Rely may) conclude s L fun _ t _ =>
      t.noted = s.noted.map (· ++ (s.active.map (·.id)).toList) := by
  have hpermits : s.phase.Permits .draining := by rw [hphase]; decide
  refine achieves_bind.mpr ((achieves_advance hpermits).mpr ?_)
  have hI : Survives may fun t _ =>
      t.course = { s.course with phase := .draining } ∧ t.noted = s.noted := fun t _ e _ ht =>
    ⟨(course_apply t e).trans ht.1, (noted_apply t e).trans ht.2⟩
  refine achieves_bind.mpr (Achieves.imp (achieves_settle hI.rely hI.queue ⟨rfl, rfl⟩) ?_)
  rintro _ t K ⟨rfl, -, hcourse, hnoted⟩
  refine achieves_bind.mpr (achieves_get.mpr ?_)
  have hactive : t.active = s.active := congrArg Course.active hcourse
  dsimp only
  rw [hactive]
  cases hs : s.active with
  | none =>
    refine achieves_bind.mpr ((achieves_pure _).mpr ((achieves_pure _).mpr ?_))
    simp [hnoted]
  | some w =>
    have hhook : t.hookFor = if t.hook.isSome then some w.id else none := by
      have hbound : s.hookFor = s.active.bind fun w => if s.hook.isSome then some w.id else none :=
        hbound.hookFor
      have hhooked : t.hook.isSome = s.hook.isSome := congrArg Course.isHooked hcourse
      rw [hs] at hbound
      rw [hhooked]
      exact (congrArg Course.hookFor hcourse).trans hbound
    refine achieves_bind.mpr
      ((achieves_runHook_noted (congrArg Course.phase hcourse) hhook).imp ?_)
    rintro r u M hu
    rw [hnoted] at hu
    cases r with
    | error e => exact hu
    | ok => exact (achieves_pure _).mpr hu

/-! ## Changes of workbook -/

/-- A change of workbook is declined, or it has called the hook for the workbook that it closes, and
the services follow. -/
theorem AtRest.switch_cases (hs : s.AtRest) {target : Target} {reply : Except SyncError Reply}
    (h : Activity.Runs (Rely may) (Session.request (.switch target)).run s L reply t K) :
    (reply = .ok .declined ∧ ∃ prompts, t = { s with prompts }) ∨
      (reply ≠ .ok .declined ∧ t.noted = s.noted.map (· ++ (s.active.map (·.id)).toList) ∧
        ServicesFollow s reply t) := by
  cases hgrants : s.grantsDiscard with
  | false =>
    obtain ⟨rfl, rfl, -⟩ := (atOnce_declined hs.isBusy hs.stable.phase_eq hgrants).eq_of_runs h
    exact .inl ⟨rfl, _, rfl⟩
  | true =>
    have hbound : ({ s with isBusy := true, phase := .confirming, prompts := s.promptsAsked } :
        Session).course.IsBound := ⟨hs.stable.sync, hs.stable.hookFor⟩
    obtain ⟨hnoted, hfollows⟩ := hs.achieves_granted hgrants (survives_noted _)
      (fun hu _ hhook _ => by rw [noted, hhook]; exact hu) (achieves_conclude_noted rfl hbound) _ _ _ h
    exact .inr ⟨hfollows.ne_declined, hnoted, hfollows⟩

end Session

/-! ## What an onlooker writes down -/

/-- A request with what it came to, and the workbooks that were active before and after it. -/
structure Passage where
  request : Request
  reply : Except SyncError Reply
  before : Option ActiveWorkbook
  after : Option ActiveWorkbook

namespace Passage

/-- Whether a change of workbook was asked for and not declined. -/
def isConfirmed (p : Passage) : Bool :=
  match p.request, p.reply with
  | .switch _, .ok .declined => false
  | .switch _, _ => true
  | _, _ => false

/-- Whether a workbook became active, or the active one was saved otherwise than in place, which is
under a path that was given or asked for. -/
def isRenewal (p : Passage) : Bool :=
  match p.reply with
  | .ok (.completed _) => true
  | .ok (.saved _) => !p.before.any fun w => p.request.isInPlace w
  | _ => false

/-- The workbook that was closed, or that was to be. -/
def closed? (p : Passage) : Option WorkbookId :=
  if p.isConfirmed then p.before.map (·.id) else none

/-- The workbook that was active under a new identity. -/
def opened? (p : Passage) : Option WorkbookId :=
  if p.isRenewal then p.after.map (·.id) else none

theorem map_append_closed? {p : Passage} (h : p.isConfirmed = false)
    (calls : Option (List WorkbookId)) : calls.map (· ++ p.closed?.toList) = calls := by
  simp [closed?, h]

/-- A passage more tells at most one more workbook. -/
theorem filterMap_concat (f : Passage → Option WorkbookId) (ps : List Passage) (p : Passage) :
    (ps ++ [p]).filterMap f = ps.filterMap f ++ (f p).toList := by
  rw [List.filterMap_append]
  cases h : f p <;> simp [h]

end Passage

/-- What a request leaves of the hook and of the services, by what an onlooker writes down of it. -/
structure Passage.Tells (p : Passage) (s t : Session) : Prop where
  noted : t.noted = s.noted.map (· ++ p.closed?.toList)
  services : t.services = Session.restarted p.opened?.toList s.services
  active : p.isRenewal → p.after.isSome

namespace Session

/-- A request that neither closes a workbook nor renews one leaves the hook and the services. -/
theorem tells_of_unmoved {p : Passage} (hconfirmed : p.isConfirmed = false)
    (hrenewal : p.isRenewal = false) (hnoted : t.noted = s.noted)
    (hservices : t.services = s.services) : p.Tells s t := by
  refine ⟨?_, ?_, fun h => ?_⟩
  · rw [Passage.map_append_closed? hconfirmed]
    exact hnoted
  · rw [Passage.opened?, hrenewal, hservices]
    simp
  · rw [hrenewal] at h
    cases h

/-- A request that closes no workbook and renews one. -/
theorem tells_of_renewed {p : Passage} {w : ActiveWorkbook} (hconfirmed : p.isConfirmed = false)
    (hrenewal : p.isRenewal = true) (hafter : p.after = some w) (hnoted : t.noted = s.noted)
    (hservices : t.services = restarted [w.id] s.services) : p.Tells s t := by
  refine ⟨?_, ?_, fun _ => by rw [hafter]; rfl⟩
  · rw [Passage.map_append_closed? hconfirmed]
    exact hnoted
  · rw [Passage.opened?, hrenewal, hafter]
    exact hservices

/-- A request to save renews the workbook if it is saved under a path that was given or asked for,
and does nothing else here. -/
theorem AtRest.tells_save (hs : s.AtRest) {r : Request} (hr : ∀ target, r ≠ .switch target)
    {reply : Except SyncError Reply}
    (h : Activity.Runs (Rely may) (Session.request r).run s L reply t K) :
    Passage.Tells ⟨r, reply, s.active, t.active⟩ s t := by
  have hconfirmed : ∀ reply before after, Passage.isConfirmed ⟨r, reply, before, after⟩ = false := by
    intro reply before after
    cases r with
    | switch target => exact absurd rfl (hr target)
    | _ => rfl
  cases hactive : s.active with
  | none =>
    obtain ⟨rfl, rfl, -⟩ := (atOnce_noActiveWorkbook hs.isBusy hactive hr).eq_of_runs h
    exact tells_of_unmoved (hconfirmed ..) rfl rfl rfl
  | some w =>
    rcases hs.saves_cases hactive hr h with
      hcancelled | ⟨path, prompts, result, u, m, M, hsaves, rfl, rfl⟩
    · obtain ⟨rfl, rfl, -⟩ := hcancelled.eq_of_runs h
      exact tells_of_unmoved (hconfirmed ..) rfl rfl rfl
    -- until the store has told its result, nobody calls the hook or restarts a service
    have hleft := hsaves.leaves rfl (f := fun u => (u.noted, u.services))
      (fun u e _ _ => Prod.ext (noted_apply u e) (congrArg Course.services (course_apply u e)))
      fun _ _ _ => rfl
    cases result with
    | error fault =>
      exact tells_of_unmoved (hconfirmed ..) rfl (congrArg Prod.fst hleft)
        (congrArg Prod.snd hleft)
    | ok =>
      obtain ⟨v, target, hv, rfl⟩ := hleft
      have hnoted : v.noted = s.noted := congrArg Prod.fst hv
      have hservices : v.services = s.services := congrArg Prod.snd hv
      cases hinPlace : r.isInPlace w with
      | true =>
        rw [told_of_inPlace hinPlace]
        refine tells_of_unmoved (hconfirmed ..) ?_ hnoted hservices
        show (!r.isInPlace w) = false
        rw [hinPlace]
        rfl
      | false =>
        rw [told_of_not_inPlace hinPlace]
        refine tells_of_renewed (hconfirmed ..) ?_ rfl hnoted ?_
        · show (!r.isInPlace w) = true
          rw [hinPlace]
          rfl
        · show restarted [.ofPath path] v.services = restarted [.ofPath path] s.services
          rw [hservices]

/-- A change of workbook that is not declined closes the workbook before, and renews the one that
becomes active. -/
theorem AtRest.tells_switch (hs : s.AtRest) {target : Target} {reply : Except SyncError Reply}
    (h : Activity.Runs (Rely may) (Session.request (.switch target)).run s L reply t K) :
    Passage.Tells ⟨.switch target, reply, s.active, t.active⟩ s t := by
  rcases hs.switch_cases h with ⟨rfl, prompts, rfl⟩ | ⟨hreply, hnoted, hfollows⟩
  · exact tells_of_unmoved rfl rfl rfl rfl
  cases reply with
  | error e =>
    refine ⟨hnoted, ?_, fun h => by cases h⟩
    rw [hfollows.2]
    exact (restarted_nil _).symm
  | ok reply =>
    obtain ⟨⟨d, rfl⟩, w, hactive, hservices⟩ := hfollows
    refine ⟨hnoted, ?_, fun _ => ?_⟩
    · rw [hservices, Passage.opened?, hactive]
      rfl
    · show t.active.isSome
      rw [hactive]
      rfl

/-- The hook is called and the services are restarted as an onlooker expects. -/
theorem AtRest.tells (hs : s.AtRest) {r : Request} {reply : Except SyncError Reply}
    (h : Activity.Runs (Rely may) (Session.request r).run s L reply t K) :
    Passage.Tells ⟨r, reply, s.active, t.active⟩ s t := by
  cases r with
  | switch target => exact hs.tells_switch h
  | save => exact hs.tells_save (by simp) h
  | saveAs path => exact hs.tells_save (by simp) h

end Session

/-! ## Runs -/

/-- A run together with what an onlooker writes down of its requests. -/
inductive Chronicle (may : Session → Event → Prop) (s₀ : Session) :
    Session → Ledger → List Passage → Prop
  | start : Chronicle may s₀ s₀ {} []
  | event {s : Session} {L : Ledger} {ps : List Passage} (e : Event) :
    Chronicle may s₀ s L ps → may s e → Chronicle may s₀ (e.apply s) (e.note s L) ps
  | request {s t : Session} {L K : Ledger} {ps : List Passage} (r : Request)
    {reply : Except SyncError Reply} :
    Chronicle may s₀ s L ps →
    Activity.Runs (Session.Rely may) (Session.request r).run s L reply t K →
    Chronicle may s₀ t (K.answered r reply s t) (ps ++ [⟨r, reply, s.active, t.active⟩])

namespace Chronicle

variable {ps : List Passage}

theorem run (h : Chronicle may s₀ s L ps) : Run may s₀ s L := by
  induction h with
  | start => exact .start
  | event e _ hmay ih => exact .event e ih hmay
  | request r _ hreq ih => exact .request r ih hreq

/-- What an onlooker writes down tells all calls of the hook and all restarts. -/
theorem accounts (hnew : s₀.AtRest) (h : Chronicle may s₀ s L ps) :
    s.noted = s₀.noted.map (· ++ ps.filterMap (·.closed?)) ∧
      s.services = Session.restarted (ps.filterMap (·.opened?)) s₀.services ∧
      ∀ p ∈ ps, p.isRenewal → p.after.isSome := by
  induction h with
  | start => simp
  | event e _ _ ih =>
    rw [Session.noted_apply]
    refine ⟨ih.1, ?_, ih.2.2⟩
    exact (congrArg Course.services (Session.course_apply _ e)).trans ih.2.1
  | request r hc hreq ih =>
    obtain ⟨hnoted, hservices, hactive⟩ := ih
    have htells := (hc.run.atRest hnew).tells hreq
    refine ⟨?_, ?_, ?_⟩
    · rw [htells.noted, hnoted, Passage.filterMap_concat, Option.map_map]
      simp only [Function.comp_def, List.append_assoc]
    · rw [htells.services, hservices, Session.restarted_restarted, Passage.filterMap_concat]
    · intro p hp
      rcases List.mem_append.mp hp with hp | hp
      · exact hactive p hp
      · rw [List.mem_singleton.mp hp]
        exact htells.active

end Chronicle

/-- Every run can be written down. -/
theorem Run.exists_chronicle (h : Run may s₀ s L) : ∃ ps, Chronicle may s₀ s L ps := by
  induction h with
  | start => exact ⟨[], .start⟩
  | event e _ hmay ih =>
    obtain ⟨ps, hps⟩ := ih
    exact ⟨ps, hps.event e hmay⟩
  | request r _ hreq ih =>
    obtain ⟨ps, hps⟩ := ih
    exact ⟨_, hps.request r hreq⟩

/-- A run can be written down, and whoever writes it down knows the hook and the services: the hook
is called once for each workbook that a change of workbook closed which was not declined, in order,
and each service is restarted once for each workbook that became active or was saved otherwise than
in place, under the identity that it has then. -/
theorem Session.hook_and_services_follow {hook : CloseHook} (hnew : s₀.IsNew)
    (hhook : s₀.hook = some hook) (hrun : Run may s₀ s L) :
    (∃ ps, Chronicle may s₀ s L ps) ∧ ∀ ps, Chronicle may s₀ s L ps →
      (∃ hook', s.hook = some hook' ∧ hook'.calls = hook.calls ++ ps.filterMap (·.closed?)) ∧
      s.services = restarted (ps.filterMap (·.opened?)) s₀.services ∧
      ∀ p ∈ ps, p.isRenewal → p.after.isSome := by
  refine ⟨hrun.exists_chronicle, fun ps h => ?_⟩
  obtain ⟨hnoted, hservices, hactive⟩ := h.accounts hnew.atRest
  refine ⟨?_, hservices, hactive⟩
  have hnoted : s.hook.map (·.calls) = some (hook.calls ++ ps.filterMap (·.closed?)) := by
    rw [show s.hook.map (·.calls) = _ from hnoted, noted, hhook]
    rfl
  exact Option.map_eq_some_iff.mp hnoted

namespace Session

/-- What is written down of requests one after the other while nothing else happens, and the session
after them. -/
def passages? : List Request → Session → Option (List Passage × Session)
  | [], s => some ([], s)
  | r :: rs, s => do
    let (reply, t) ← ((Session.request r).run s).calm?
    let (ps, u) ← passages? rs t
    return (⟨r, reply, s.active, t.active⟩ :: ps, u)

end Session

theorem Chronicle.of_passages? {ps qs : List Passage} {rs : List Request}
    (hc : Chronicle may s₀ s L ps) (h : s.passages? rs = some (qs, t)) :
    ∃ K, Chronicle may s₀ t K (ps ++ qs) := by
  induction rs generalizing s L ps qs with
  | nil =>
    cases h
    exact ⟨L, by simpa using hc⟩
  | cons r rs ih =>
    obtain ⟨⟨reply, u⟩, hreq, h⟩ := Option.bind_eq_some_iff.mp h
    obtain ⟨⟨qs, v⟩, hrest, h⟩ := Option.bind_eq_some_iff.mp h
    cases h
    have hreq : Activity.Runs (Session.Rely may) (Session.request r).run s L reply u L :=
      Progress.runs_of_calm? (fun k s g hk => ⟨.none, fun h => absurd h hk⟩) hreq
    obtain ⟨K, hK⟩ := ih (hc.request r hreq) hrest
    exact ⟨K, by simpa using hK⟩

/-- A session with a hook and a service, on a store that opens no file. -/
def Session.followed : Session :=
  { Session.on { watch := some { openFails := true } } with
    hook := some {}, services := [{ name := "index" }] }

/-- A change of workbook that fails closes the workbook too, which is then closed again by the next
one, and it opens none. -/
theorem Session.hook_called_though_unopened : ∃ s L ps, Session.followed.IsNew ∧
    Chronicle (fun _ _ => True) .followed s L ps ∧
    (∃ hook, s.hook = some hook ∧ hook.calls = ps.filterMap (·.closed?)) ∧
    s.services = restarted (ps.filterMap (·.opened?)) [{ name := "index" }] ∧
    (ps.filterMap (·.closed?)).length = 2 ∧ (ps.filterMap (·.opened?)).length = 2 := by
  have hends : (Session.followed.passages?
      [.switch .blank, .switch (.file "a"), .switch .blank]).any fun e =>
        (e.1.filterMap (·.closed?)).length == 2 && (e.1.filterMap (·.opened?)).length == 2 := by
    decide +kernel
  obtain ⟨⟨ps, s⟩, hs, hends⟩ := (Option.any_eq_true _ _).mp hends
  obtain ⟨hclosed, hopened⟩ := Bool.and_eq_true_iff.mp hends
  have hnew : Session.followed.IsNew := ⟨_, rfl, rfl⟩
  obtain ⟨K, hK⟩ : ∃ K, Chronicle (fun _ _ => True) .followed s K ([] ++ ps) :=
    Chronicle.of_passages? .start hs
  obtain ⟨⟨hook, hhook, hcalls⟩, hservices, -⟩ := (hook_and_services_follow hnew rfl hK.run).2 ps hK
  exact ⟨s, K, ps, hnew, hK, ⟨hook, hhook, hcalls⟩, hservices, eq_of_beq hclosed, eq_of_beq hopened⟩

end SheetSync
