import SheetSync.Proofs.Session.Steps
/-!
Saving a session's workbook. A request to save is refused or cancelled at once, or it comes to an
attempt under a path: `atOnce_noActiveWorkbook` and `save_cases`. It leaves the session with the
workbook that it had, but for its path and identity, whether it succeeds, fails or is given up:
`achieves_saveRequest`.
-/
namespace SheetSync

/-- Whether a request saves a workbook in place. -/
def Request.isInPlace (w : ActiveWorkbook) : Request → Bool
  | .save => w.descriptor.savePath?.isSome
  | _ => false

namespace Session

variable {may : Session → Event → Prop} {s t : Session} {L K : Ledger}

/-- What survives a request to save, whatever others do. -/
structure SurvivesSaving (may : Session → Event → Prop) (I : Session → Ledger → Prop) : Prop where
  event : Survives may I
  phase : ∀ {s L} (p : Phase), I s L → I { s with phase := p } L
  busy : ∀ {s L} (isBusy : Bool), I s L → I { s with isBusy } L
  prompts : ∀ {s L} (prompts : Prompts), I s L → I { s with prompts } L
  services : ∀ {s L} (services : List Service), I s L → I { s with services } L
  log : ∀ {s L} (path : Option String), I s L →
    I { s with store := s.store.logged (.saveWorkbook path) } L
  spend : ∀ {s L}, I s L → I { s with store := s.store.spent } L
  files : ∀ {s L} (files : FileTree), I s L → I { s with store := { s.store with files } } L
  path : ∀ {s L} (path : String), I s L →
    I { s with store := { s.store with
      workbook := s.store.workbook.map ({ · with path := some path }) } } L
  saved : ∀ {s L}, I s L → I { s with toLink := s.toLink.perform .markSaved } L
  rename : ∀ {s L w} (path : String) (refresh : RefreshBook) (hookFor : Option WorkbookId),
    s.active = some w → I s L →
    I { s with refresh, hookFor, active := some { w with
      descriptor := w.descriptor.withPath path, id := .ofPath path } } L

/-- A session that saves, or is about to. -/
structure Saving (s : Session) : Prop where
  wired : s.Wired
  bound : s.course.IsBound
  isBusy : s.isBusy = true

namespace Saving

theorem congr (h : s.Saving) (hdocument : t.document = s.document) (hqueue : t.queue = s.queue)
    (hcourse : t.course = { s.course with phase := t.phase, services := t.services }) :
    t.Saving where
  wired := h.wired.congr hdocument hqueue (congrArg Course.sync hcourse)
  bound := by
    rw [hcourse]
    exact ⟨h.bound.sync, h.bound.hookFor⟩
  isBusy := (congrArg Course.isBusy hcourse).trans h.isBusy

theorem apply (h : s.Saving) (e : Event) : (e.apply s).Saving where
  wired := h.wired.apply e
  bound := by
    rw [course_apply]
    exact h.bound
  isBusy := (congrArg Course.isBusy (course_apply s e)).trans h.isBusy

/-- A workbook that is active under another name is bound if the hook goes with it. -/
theorem rename (h : s.Saving) (hactive : s.active.isSome) (w : ActiveWorkbook)
    (refresh : RefreshBook) :
    ({ s with refresh, hookFor := s.hookFor.map fun _ => w.id, active := some w } :
      Session).Saving := by
  refine ⟨h.wired.congr rfl rfl rfl, ⟨?_, ?_⟩, h.isBusy⟩
  · exact (show s.sync.isSome = s.active.isSome from h.bound.sync).trans hactive
  · obtain ⟨v, hv⟩ := Option.isSome_iff_exists.mp hactive
    have hhook : s.hookFor = s.active.bind fun v => if s.hook.isSome then some v.id else none :=
      h.bound.hookFor
    show s.hookFor.map (fun _ => w.id) = if s.hook.isSome then some w.id else none
    rw [hhook, hv]
    cases s.hook <;> rfl

end Saving

/-! ## Attempts to save -/

section Attempts

variable {γ : Type} {rely : Pause → Session → γ → Session → γ → Prop} {g : γ} {w : ActiveWorkbook}

theorem atOnce_choosePath : AtOnce choosePath s (.ok s.prompts.choosePath.1)
    { s with prompts := s.prompts.choosePath.2 } :=
  .bind .get (.bind (.set _) (.pure _))

theorem atOnce_activeWorkbook (hactive : s.active = some w) :
    AtOnce activeWorkbook s (.ok w) s := by
  refine .bind .get ?_
  rw [hactive]
  exact .pure w

theorem atOnce_activeWorkbook_of_none (hactive : s.active = none) :
    AtOnce activeWorkbook s (.error .noActiveWorkbook) s := by
  refine .bind .get ?_
  rw [hactive]
  exact .throw _

/-- What does not depend on the phase stays, whether a phase is allowed or not. -/
theorem keeps_advance {I : Session → γ → Prop}
    (hI : ∀ {s g} (p : Phase), I s g → I { s with phase := p } g) (p : Phase) :
    Keeps rely I (advance p) := by
  intro s g hs
  refine achieves_bind.mpr (achieves_get.mpr ?_)
  dsimp only
  split
  · exact (achieves_set _).mpr (hI p hs)
  · exact (achieves_throw _).mpr hs

/-- Without an active workbook a save is refused at once. -/
theorem atOnce_noActiveWorkbook (hbusy : s.isBusy = false) (hactive : s.active = none)
    {r : Request} (hr : ∀ target, r ≠ .switch target) :
    AtOnce (request r) s (.error .noActiveWorkbook) s := by
  have hsame : ({ s with isBusy := false } : Session) = s := by rw [← hbusy]
  have hnone := atOnce_activeWorkbook_of_none (s := { s with isBusy := true }) hactive
  cases r with
  | switch target => exact absurd rfl (hr target)
  | save =>
    have h := atOnce_exclusively hbusy (hnone.bind_error (f := save))
    rwa [hsame] at h
  | saveAs path =>
    have h := atOnce_exclusively hbusy (hnone.bind_error (f := fun w => saveUnder w path))
    rwa [hsame] at h

/-- What a request to save a workbook does in the saving phase, with a path. -/
def attempt (w : ActiveWorkbook) (r : Request) (path : String) : SessionM Unit :=
  if r.isInPlace w then writeOut path
  else do
    writeOut path
    rename w path

/-- A save tells its path when it was attempted with success. -/
theorem achieves_saved {m : SessionM Unit} {path : String}
    {post : Except SyncError Reply → Session → γ → Prop}
    (h : Achieves rely (saving m) s g fun a t i => post (a.map fun _ => .saved path) t i) :
    Achieves rely (do saving m; return .saved path : SessionM Reply) s g post := by
  refine achieves_bind.mpr (h.imp ?_)
  rintro (e | _) t i ht
  · exact ht
  · exact (achieves_pure _).mpr ht

/-- Whether a request to save a workbook, by some steps, is cancelled at once for want of a path, or
comes to an attempt. -/
def Attempted (rely : Pause → Session → γ → Session → γ → Prop) (g : γ) (w : ActiveWorkbook)
    (r : Request) (m : SessionM Reply) (s : Session) : Prop :=
  AtOnce m s (.ok .cancelled) { s with prompts := s.prompts.choosePath.2 } ∨
    ∃ path prompts, (r.isInPlace w → w.descriptor.savePath? = some path) ∧
      ∀ post : Except SyncError Reply → Session → γ → Prop,
        Achieves rely (saving (attempt w r path)) { s with prompts } g
          (fun a t i => post (a.map fun _ => .saved path) t i) →
        Achieves rely m s g post

/-- A save under a new path needs one that is given, or chosen by the user. -/
theorem attempted_saveUnder {r : Request} (hinPlace : r.isInPlace w = false) (path : Option String)
    (s : Session) : Attempted rely g w r (saveUnder w path) s := by
  unfold Attempted attempt
  simp only [hinPlace]
  cases path with
  | some p =>
    refine .inr ⟨p, s.prompts, nofun, fun _ h => ?_⟩
    exact achieves_bind.mpr ((achieves_pure _).mpr (achieves_saved h))
  | none =>
    cases hchosen : s.prompts.choosePath.1 with
    | none =>
      refine .inl (.bind atOnce_choosePath ?_)
      rw [hchosen]
      exact .pure _
    | some p =>
      refine .inr ⟨p, s.prompts.choosePath.2, nofun, fun _ h => ?_⟩
      refine atOnce_choosePath.achieves_bind.mpr ?_
      rw [hchosen]
      exact achieves_saved h

/-- A workbook with a path of its own is saved there. -/
theorem attempted_save (w : ActiveWorkbook) (s : Session) :
    Attempted rely g w .save (save w) s := by
  unfold save
  cases hpath : w.descriptor.savePath? with
  | none => exact attempted_saveUnder (by rw [Request.isInPlace, hpath]; rfl) none s
  | some path =>
    refine .inr ⟨path, s.prompts, fun _ => hpath, fun _ h => ?_⟩
    rw [attempt, Request.isInPlace, hpath] at h
    exact achieves_saved h

variable (rely g) in
/-- A save of an active workbook is cancelled at once, or attempted. -/
theorem save_cases (hbusy : s.isBusy = false) (hactive : s.active = some w) {r : Request}
    (hr : ∀ target, r ≠ .switch target) :
    AtOnce (request r) s (.ok .cancelled) { s with prompts := s.prompts.choosePath.2 } ∨
      ∃ path prompts, (r.isInPlace w → w.descriptor.savePath? = some path) ∧
        ∀ post : Except SyncError Reply → Session → γ → Prop,
          Achieves rely (saving (attempt w r path)) { s with isBusy := true, prompts } g
            (fun a t i => post (a.map fun _ => .saved path) { t with isBusy := false } i) →
          Achieves rely (request r) s g post := by
  have hfound := atOnce_activeWorkbook (s := { s with isBusy := true }) hactive
  have hsame : ∀ prompts, ({ s with isBusy := false, prompts } : Session) = { s with prompts } := by
    intro prompts
    rw [← hbusy]
  obtain ⟨m, hm, hattempted⟩ : ∃ m : ActiveWorkbook → SessionM Reply,
      request r = exclusively (activeWorkbook >>= m) ∧
        Attempted rely g w r (m w) { s with isBusy := true } := by
    cases r with
    | switch target => exact absurd rfl (hr target)
    | save => exact ⟨save, rfl, attempted_save w _⟩
    | saveAs path => exact ⟨fun w => saveUnder w path, rfl, attempted_saveUnder rfl path _⟩
  rw [hm]
  rcases hattempted with hcancelled | ⟨path, prompts, hpath, hsaved⟩
  · left
    rw [← hsame]
    exact atOnce_exclusively hbusy (.bind hfound hcancelled)
  · refine .inr ⟨path, prompts, hpath, fun _ h => ?_⟩
    exact (achieves_exclusively hbusy).mpr (hfound.achieves_bind.mpr (hsaved _ h))

/-- Saving goes through its phase and back to the active one. -/
theorem achieves_saving_of_active {m : SessionM Unit} (hphase : s.phase = .active)
    {post : Except SyncError Unit → Session → γ → Prop}
    (h : Achieves rely m { s with phase := .saving } g fun r t i =>
      t.phase = .saving ∧ post r { t with phase := .active } i) :
    Achieves rely (saving m) s g post := by
  have hpermits : s.phase.Permits .saving := by rw [hphase]; decide
  refine achieves_bind.mpr ((achieves_advance hpermits).mpr ?_)
  refine achieves_bind.mpr (achieves_tryCatch.mpr (h.imp ?_))
  rintro r t i ⟨hsaving, ht⟩
  have hback : t.phase.Permits .active := by rw [hsaving]; decide
  cases r with
  | ok => exact (achieves_advance hback).mpr ht
  | error e =>
    refine achieves_bind.mpr (achieves_tryCatch.mpr ((achieves_advance hback).mpr ?_))
    exact (achieves_throw e).mpr ht

/-- What is known of a session with an active workbook `w` before it is saved, and what attempts to
write it out under a path come to, whatever the phase, the prompts and whether the session is
busy. -/
structure Attempts (rely : Pause → Session → γ → Session → γ → Prop) (w : ActiveWorkbook)
    (I : Session → γ → Prop) (J : String → Except SyncError Unit → Session → γ → Prop) : Prop where
  phase : ∀ {s g} (p : Phase), I s g → I { s with phase := p } g
  prompts : ∀ {s g} (prompts : Prompts), I s g → I { s with prompts } g
  attempted : ∀ {path r s g} (p : Phase), J path r s g → J path r { s with phase := p } g
  refused : ∀ {path s g} (e : SyncError), I s g → J path (.error e) s g
  stuck : ∀ {path s g} (e : SyncError), J path (.ok ()) s g → J path (.error e) s g
  under : ∀ path {s g}, I s g →
    Achieves rely (do writeOut path; rename w path) s g (J path)
  inPlace : ∀ {path s g}, w.descriptor.savePath? = some path → I s g →
    Achieves rely (writeOut path) s g (J path)

namespace Attempts

variable {I : Session → γ → Prop} {J : String → Except SyncError Unit → Session → γ → Prop}
  (h : Attempts rely w I J)
include h

/-- Saving goes through phases only; what an attempt leaves is left. -/
theorem saving {path : String} {attempt : SessionM Unit}
    (hattempt : ∀ {s g}, I s g → Achieves rely attempt s g (J path)) (hs : I s g) :
    Achieves rely (saving attempt) s g (J path) := by
  refine achieves_bind.mpr ((keeps_advance h.phase .saving s g hs).imp ?_)
  rintro (e | _) t i ht
  · exact h.refused e ht
  have hback : ∀ r, Keeps rely (J path r) (advance .active) := fun r => keeps_advance h.attempted _
  refine achieves_bind.mpr (achieves_tryCatch.mpr ((hattempt ht).imp ?_))
  rintro (e | _) u j hu
  · refine achieves_bind.mpr (achieves_tryCatch.mpr ((hback _ u j hu).imp ?_))
    rintro (e' | _) v k hv
    · exact (achieves_pure _).mpr ((achieves_throw e).mpr hv)
    · exact (achieves_throw e).mpr hv
  · refine (hback _ u j hu).imp ?_
    rintro (e | _) v k hv
    · exact h.stuck e hv
    · exact hv

/-- What a save comes to: it is given up before anything was written, or attempted. -/
def Outcome (I : Session → γ → Prop) (J : String → Except SyncError Unit → Session → γ → Prop)
    (r : Except SyncError Reply) (t : Session) (i : γ) : Prop :=
  (r = .ok .cancelled ∧ I t i) ∨
    ∃ path attempt, r = attempt.map (fun _ => .saved path) ∧ J path attempt t i

/-- What a request to save comes to. -/
theorem request {r : Request} (hr : ∀ target, r ≠ .switch target) (hbusy : s.isBusy = false)
    (hactive : s.active = some w) (hs : I { s with isBusy := true } g) :
    Achieves rely (request r) s g fun reply t i =>
      ∃ u, Outcome I J reply u i ∧ t = { u with isBusy := false } := by
  rcases save_cases rely g hbusy hactive hr with hcancelled | ⟨path, prompts, hpath, hsaved⟩
  · refine hcancelled.achieves.mpr ⟨_, .inl ⟨rfl, h.prompts s.prompts.choosePath.2 hs⟩, ?_⟩
    rw [← hbusy]
  refine hsaved _ ((h.saving ?_ (h.prompts prompts hs)).imp fun a t i ht =>
    ⟨t, .inr ⟨path, a, rfl, ht⟩, rfl⟩)
  intro t i ht
  unfold attempt
  split
  · next hinPlace => exact h.inPlace (hpath hinPlace) ht
  · exact h.under path ht

end Attempts

end Attempts

/-! ## Sessions that save -/

variable {I : Session → Ledger → Prop} (hI : SurvivesSaving may I)
include hI

namespace SurvivesSaving

/-- What is known all along while a workbook is saved. -/
theorem savable (w : ActiveWorkbook) (p : Phase) :
    Savable (Rely may) (fun call => ∃ path, call = .saveWorkbook path)
      fun s L => s.Saving ∧ s.active = some w ∧ s.phase = p ∧ I s L where
  rely {k s L t K} hk hs := by
    have hcourse := course_of_meanwhile hk.1
    refine ⟨hk.1.keeps (I := fun t _ => t.Saving) (fun _ _ e _ ht => ht.apply e) hs.1, ?_, ?_, ?_⟩
    · exact (congrArg Course.active hcourse).trans hs.2.1
    · exact (congrArg Course.phase hcourse).trans hs.2.2.1
    · exact hI.event.rely hk hs.2.2.2
  log := by
    rintro s L _ ⟨path, rfl⟩ hs
    exact ⟨hs.1.congr rfl rfl rfl, hs.2.1, hs.2.2.1, hI.log path hs.2.2.2⟩
  spend hs := ⟨hs.1.congr rfl rfl rfl, hs.2.1, hs.2.2.1, hI.spend hs.2.2.2⟩
  files files hs := ⟨hs.1.congr rfl rfl rfl, hs.2.1, hs.2.2.1, hI.files files hs.2.2.2⟩
  path path hs := ⟨hs.1.congr rfl rfl rfl, hs.2.1, hs.2.2.1, hI.path path hs.2.2.2⟩

theorem survives (w : ActiveWorkbook) (p : Phase) :
    Survives may fun s L => s.Saving ∧ s.active = some w ∧ s.phase = p ∧ I s L := by
  intro s L e hmay hs
  have hrely : Rely may .turn s L (e.apply s) (e.note s L) :=
    ⟨Meanwhile.none.event e hmay, fun h => by cases h⟩
  exact (hI.savable w p).rely hrely hs

theorem writeOut (w : ActiveWorkbook) (p : Phase) (path : String) :
    Keeps (Rely may) (fun s L => s.Saving ∧ s.active = some w ∧ s.phase = p ∧ I s L)
      (writeOut path) := by
  refine .bind ?_ fun _ => .bind ?_ fun _ => ?_
  · intro s L hs
    have hsurvives := hI.survives w p
    exact (achieves_settle hsurvives.rely hsurvives.queue hs).imp fun _ _ _ ht => ht.2.2
  · exact ((hI.savable w p).saveWorkbook ⟨some path, rfl⟩).keeps
  · refine .modify fun s L hs => ?_
    exact ⟨hs.1.apply (.act .markSaved), hs.2.1, hs.2.2.1, hI.saved hs.2.2.2⟩

end SurvivesSaving

/-- An attempt to save a workbook keeps it active, by whatever name. -/
theorem SurvivesSaving.attempt {w : ActiveWorkbook} (r : Request) (path : String) (hsaving : s.Saving)
    (hactive : s.active = some w) (hphase : s.phase = .saving) (hs : I s L) :
    Achieves (Rely may) (attempt w r path) s L fun _ t K =>
      t.Saving ∧ t.active.isSome ∧ t.phase = .saving ∧ I t K := by
  have hwritten := hI.writeOut w .saving path s L ⟨hsaving, hactive, hphase, hs⟩
  unfold Session.attempt
  split
  · refine hwritten.imp ?_
    rintro r t K ⟨hsaving, hactive, hphase, ht⟩
    exact ⟨hsaving, by rw [hactive]; rfl, hphase, ht⟩
  refine achieves_bind.mpr (hwritten.imp ?_)
  rintro (e | _) t K ⟨hsaving, hactive, hphase, ht⟩
  · exact ⟨hsaving, by rw [hactive]; rfl, hphase, ht⟩
  · refine achieves_bind.mpr ((achieves_modify _).mpr ((achieves_modify _).mpr ?_))
    -- the hook is installed for the new identity, so the workbook stays bound
    have hrenamed := hsaving.rename (by rw [hactive]; rfl) { w with
      descriptor := w.descriptor.withPath path, id := .ofPath path }
      (t.refresh.migrate w.id (.ofPath path)).2
    refine ⟨hrenamed.congr rfl rfl rfl, rfl, hphase, ?_⟩
    exact hI.services _ (hI.rename path _ _ hactive ht)

/-- A request to save leaves the session at rest. -/
theorem achieves_saveRequest {r : Request} (hr : ∀ target, r ≠ .switch target) (hrest : s.AtRest)
    (hs : I s L) :
    Achieves (Rely may) (request r) s L fun _ t K => t.AtRest ∧ I t K := by
  obtain hactive | ⟨w, hactive⟩ := Option.eq_none_or_eq_some s.active
  · exact (atOnce_noActiveWorkbook hrest.isBusy hactive hr).achieves.mpr ⟨hrest, hs⟩
  rcases save_cases (Rely may) L hrest.isBusy hactive hr with
    hcancelled | ⟨path, prompts, -, hsaved⟩
  · exact hcancelled.achieves.mpr ⟨hrest.withPrompts _, hI.prompts _ hs⟩
  have hsaving : ({ s with isBusy := true, prompts, phase := .saving } : Session).Saving :=
    ⟨hrest.wired.congr rfl rfl rfl, ⟨hrest.stable.sync, hrest.stable.hookFor⟩, rfl⟩
  have hstart := hI.phase .saving (hI.prompts prompts (hI.busy true hs))
  refine hsaved _ (achieves_saving_of_active (s := { s with isBusy := true, prompts })
    (hrest.phase_eq_active hactive) ((hI.attempt r path hsaving hactive rfl hstart).imp ?_))
  rintro a t K ⟨hsaving, hactive, hphase, ht⟩
  refine ⟨hphase, ⟨hsaving.wired.congr rfl rfl rfl, ⟨⟨hsaving.bound.sync, hsaving.bound.hookFor⟩, ?_⟩,
    rfl⟩, hI.busy false (hI.phase .active ht)⟩
  show Phase.active = if t.active.isSome then .active else .idle
  rw [hactive]
  rfl

end Session

end SheetSync
