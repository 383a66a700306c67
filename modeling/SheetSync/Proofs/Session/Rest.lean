import SheetSync.Proofs.Session.Saving
import SheetSync.Proofs.Session.Swap
/-!
Sessions between requests. Whatever others do, and however requests end, a session that is run from
its creation on comes to rest after each request: `Run.atRest`. What is to hold in every state of a
run is shown along the same induction, one case for events, for requests to save and for changes of
workbook: `Run.induct`.
-/
namespace SheetSync

variable {may : Session → Event → Prop} {s t : Session} {L K : Ledger}

namespace Session

/-- A session at rest is at rest again after a change of workbook. -/
theorem TurnsAt.atRest {target : Target} {r : Except SyncError Reply} {m : Session} {M : Ledger}
    (h : TurnsAt may target s L r t K m M) (hs : s.AtRest) : t.AtRest := by
  obtain ⟨hidle, hphase, -, hwired⟩ := h.closing survivesClosing_wired fun prompts =>
    hs.wired.congr rfl rfl rfl
  obtain ⟨u, ⟨hu, hstable⟩, rfl⟩ := h.ends (achieves_swap_isStable hwired hidle hphase _)
  exact ⟨hu.congr rfl rfl rfl, ⟨⟨hstable.sync, hstable.hookFor⟩, hstable.phase⟩, rfl⟩

end Session

theorem survivesSaving_true : Session.SurvivesSaving may fun _ _ => True where
  event _ _ _ _ _ := trivial
  phase _ _ := trivial
  busy _ _ := trivial
  prompts _ _ := trivial
  services _ _ := trivial
  log _ _ := trivial
  spend _ := trivial
  files _ _ := trivial
  path _ _ := trivial
  saved _ := trivial
  rename _ _ _ _ _ := trivial

/-- A session at rest is at rest again after any request. -/
theorem Session.AtRest.request (hs : s.AtRest) (r : Request) {reply : Except SyncError Reply}
    (h : Activity.Runs (Session.Rely may) (Session.request r).run s L reply t K) : t.AtRest := by
  have hsave : (∀ target, r ≠ .switch target) → t.AtRest := fun hr =>
    (Session.achieves_saveRequest survivesSaving_true hr hs trivial reply t K h).1
  cases r with
  | switch target =>
    rcases Session.exists_turnsAt hs.isBusy hs.stable.phase_eq h with
      ⟨-, -, prompts, rfl⟩ | ⟨m, M, hturn⟩
    · exact hs.withPrompts prompts
    · exact hturn.atRest hs
  | save => exact hsave (by simp)
  | saveAs path => exact hsave (by simp)

/-- Between requests, a session is at rest. -/
theorem Run.atRest {s₀ : Session} (hnew : s₀.AtRest) (h : Run may s₀ s L) : s.AtRest := by
  induction h with
  | start => exact hnew
  | event e _ _ ih => exact ih.apply e
  | request r _ hreq ih => exact ih.request r hreq

/-- What events, requests to save and changes of workbook keep holds in every state of a run. -/
theorem Run.induct {s₀ : Session} {I : Session → Ledger → Prop} (hnew : s₀.AtRest)
    (hstart : I s₀ {})
    (hevent : ∀ s L e, s.AtRest → may s e → I s L → I (e.apply s) (e.note s L))
    (hsave : ∀ s L r reply t K, (∀ target, r ≠ .switch target) → s.AtRest → I s L →
      Activity.Runs (Session.Rely may) (Session.request r).run s L reply t K →
      I t (K.answered r reply s t))
    (hswitch : ∀ s L target reply t K, s.AtRest → I s L →
      Activity.Runs (Session.Rely may) (Session.request (.switch target)).run s L reply t K →
      I t (K.answered (.switch target) reply s t))
    (h : Run may s₀ s L) : I s L := by
  induction h with
  | start => exact hstart
  | event e hrun hmay ih => exact hevent _ _ e (hrun.atRest hnew) hmay ih
  | request r hrun hreq ih =>
    have hrest := hrun.atRest hnew
    cases r with
    | switch target => exact hswitch _ _ target _ _ _ hrest ih hreq
    | save => exact hsave _ _ .save _ _ _ (by simp) hrest ih hreq
    | saveAs path => exact hsave _ _ (.saveAs path) _ _ _ (by simp) hrest ih hreq

/-! ## Sessions to start from -/

/-- A new session with a store, which never gives way. -/
def Session.on (store : Store) : Session := { config := { ticks := 0 }, store }

theorem Session.isNew_on (store : Store) : (Session.on store).IsNew := ⟨_, rfl, rfl⟩

theorem Run.of_end? {store : Store} {r : Request} {reply : Except SyncError Reply}
    (h : ((Session.request r).run (.on store)).end? = some (reply, s)) :
    Run may (.on store) s (.answered {} r reply (.on store) s) :=
  .request r .start (Progress.runs_of_end? h)

/-- Whether a reply is a fault of the store. -/
def isStoreFault : Except SyncError Reply → Bool
  | .error (.store _) => true
  | _ => false

theorem exists_of_isStoreFault {r : Except SyncError Reply} (h : isStoreFault r) :
    ∃ fault, r = .error (.store fault) := by
  unfold isStoreFault at h
  split at h
  · next fault => exact ⟨fault, rfl⟩
  · cases h

/-- Whether a reply tells of a workbook that became active. -/
def isCompleted : Except SyncError Reply → Bool
  | .ok (.completed _) => true
  | _ => false

theorem exists_of_isCompleted {r : Except SyncError Reply} (h : isCompleted r) :
    ∃ d, r = .ok (.completed d) := by
  unfold isCompleted at h
  split at h
  · next d => exact ⟨d, rfl⟩
  · cases h

/-- A change of one cell of a blank workbook. -/
def oneChange : DocumentAction := .edit .user defaultSheet [(⟨0, 0⟩, .ofValue (.bool true))]

end SheetSync
