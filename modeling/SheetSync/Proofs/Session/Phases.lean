import SheetSync.Proofs.Session.Rest
/-!
The phases that a request goes through. A request is laid out as the changes of phase that it makes,
checked or not, with what has nothing to do with the phase in between: `outline`. The layout is of
the request itself, step by step, so that no change can be left out. Main statement:
`AtRest.lawful`, by which every change of phase that a request makes is an allowed one.
-/
namespace SheetSync

/-- Whether an error tells of a change of phase that is not allowed, alone or along with others. -/
def SyncError.IsIllegal : SyncError → Prop
  | .illegalPhase _ _ => True
  | .restoreFailed transition restore => transition.IsIllegal ∨ restore.IsIllegal
  | _ => False

namespace Session

variable {α β : Type}

/-- Whether a step did not fail for its phase. -/
def Legal (r : Except SyncError α) : Prop := ∀ e, r = .error e → ¬ e.IsIllegal

theorem legal_ok (a : α) : Legal (.ok a : Except SyncError α) := by
  rintro e ⟨⟩

theorem legal_error {e : SyncError} (he : ¬ e.IsIllegal) :
    Legal (.error e : Except SyncError α) := by
  rintro _ ⟨⟩
  exact he

/-- Whether a step that came so far shows no other phase than `p`, here and at all it comes to, if
nobody else changes the phase, and does not fail for its phase. -/
def Stays (p : Phase) : Progress Session (Except SyncError α) → Prop
  | .done r s => s.phase = p ∧ Legal r
  | .paused _ s resume => s.phase = p ∧ ∀ t, t.phase = p → Stays p (resume t)

/-- A step goes on from where it came to with something that does not change the phase either. -/
theorem Stays.bind {p : Phase} {m : Progress Session (Except SyncError α)}
    {f : Except SyncError α → Activity Session (Except SyncError β)} (hm : Stays p m)
    (hf : ∀ r t, Legal r → Stays t.phase (f r t)) : Stays p (m.bind f) := by
  induction m with
  | done r t =>
    obtain ⟨rfl, hr⟩ := hm
    exact hf r t hr
  | paused k t resume ih => exact ⟨hm.1, fun u hu => ih u (hm.2 u hu)⟩

/-- Whether a step has nothing to do with the phase. -/
def KeepsPhase (m : SessionM α) : Prop := ∀ s : Session, Stays s.phase (m.run s)

namespace KeepsPhase

theorem pure (a : α) : KeepsPhase (pure a : SessionM α) := fun _ => ⟨rfl, legal_ok a⟩

theorem get : KeepsPhase (get : SessionM Session) := fun s => ⟨rfl, legal_ok s⟩

theorem throw {e : SyncError} (he : ¬ e.IsIllegal) : KeepsPhase (throw e : SessionM α) :=
  fun _ => ⟨rfl, legal_error he⟩

theorem modify {f : Session → Session} (hf : ∀ s, (f s).phase = s.phase) :
    KeepsPhase (modify f : SessionM PUnit) := fun s => ⟨hf s, legal_ok _⟩

theorem pause (k : Pause) : KeepsPhase (pause k) :=
  fun _ => ⟨rfl, fun _ ht => ⟨ht, legal_ok _⟩⟩

theorem bind {m : SessionM α} {f : α → SessionM β} (hm : KeepsPhase m) (hf : ∀ a, KeepsPhase (f a)) :
    KeepsPhase (m >>= f) := by
  refine fun s => (hm s).bind fun r t hr => ?_
  cases r with
  | ok a => exact hf a t
  | error e => exact ⟨rfl, legal_error (hr e rfl)⟩

theorem attempt {m : SessionM α} {f : SyncError → SessionM α} (hm : KeepsPhase m)
    (hf : ∀ e, KeepsPhase (f e)) : KeepsPhase (tryCatch m f) := by
  refine fun s => (hm s).bind fun r t _ => ?_
  cases r with
  | ok a => exact ⟨rfl, legal_ok a⟩
  | error e => exact hf e t

theorem command (m : StoreM α) : KeepsPhase (command m) := by
  have h : ∀ (p : Progress Store (Except StoreError α)) (s : Session),
      Stays s.phase ((p.zoom (fun s : Session => s.store) (fun store s => { s with store }) s).bind
        fun r => Progress.done (r.mapError SyncError.store)) := by
    intro p
    induction p with
    | done r t =>
      intro s
      refine ⟨rfl, ?_⟩
      cases r <;> rintro _ ⟨⟩
      exact id
    | paused k t resume ih => exact fun s => ⟨rfl, fun u hu => hu ▸ ih _ u⟩
  exact fun s => h _ s

theorem ite {c : Prop} [Decidable c] {m n : SessionM α} (hm : KeepsPhase m) (hn : KeepsPhase n) :
    KeepsPhase (if c then m else n) := by
  split
  · exact hm
  · exact hn

end KeepsPhase

/-! ## Outlines -/

/-- A step of a session as it is put together from changes of the phase and from what has nothing to
do with it. -/
inductive Outline : {α : Type} → SessionM α → Type 1
  | other {α : Type} {m : SessionM α} (h : KeepsPhase m) : Outline m
  /-- A change of phase that is checked. -/
  | advance (p : Phase) : Outline (advance p)
  /-- A change that is not. -/
  | write (f : Session → Session) : Outline (modify f)
  | get : Outline (get : SessionM Session)
  | throw {α : Type} (e : SyncError) : Outline (throw e : SessionM α)
  | bind {α β : Type} {m : SessionM α} {f : α → SessionM β} :
    Outline m → (∀ a, Outline (f a)) → Outline (m >>= f)
  | attempt {α : Type} {m : SessionM α} {f : SyncError → SessionM α} :
    Outline m → (∀ e, Outline (f e)) → Outline (tryCatch m f)
  | ite {α : Type} {c : Prop} [Decidable c] {m n : SessionM α} :
    Outline m → Outline n → Outline (if c then m else n)
  | exclusively {α : Type} {m : SessionM α} : Outline m → Outline (exclusively m)

namespace Outline

/-- Whether all changes of phase are allowed ones, wherever the step comes to from a state on. A
change that is not checked may also leave the phase as it is. -/
def Lawful (may : Session → Event → Prop) : {α : Type} → {m : SessionM α} → Outline m → Session →
    Ledger → Prop
  | _, _, .other _, _, _ => True
  | _, _, .advance p, s, _ => s.phase.Permits p
  | _, _, .write f, s, _ => (f s).phase = s.phase ∨ s.phase.Permits (f s).phase
  | _, _, .get, _, _ => True
  | _, _, .throw _, _, _ => True
  | _, _, .bind (m := m) o o', s, L => o.Lawful may s L ∧
    ∀ a t K, Activity.Runs (Rely may) m.run s L (.ok a) t K → (o' a).Lawful may t K
  | _, _, .attempt (m := m) o o', s, L => o.Lawful may s L ∧
    ∀ e t K, Activity.Runs (Rely may) m.run s L (.error e) t K → (o' e).Lawful may t K
  | _, _, @ite _ c _ _ _ o o', s, L => (c → o.Lawful may s L) ∧ (¬ c → o'.Lawful may s L)
  | _, _, .exclusively o, s, L => s.isBusy = false → o.Lawful may { s with isBusy := true } L

end Outline

/-! ## What has nothing to do with the phase -/

theorem keepsPhase_drain : KeepsPhase drain := by
  refine .bind .get fun _ => ?_
  split
  · exact .pause _
  · exact .pure _

theorem keepsPhase_giveWay (n : Nat) : KeepsPhase (giveWay n) := by
  induction n with
  | zero => exact .pure _
  | succ n ih => exact .bind (.pause _) fun _ => ih

theorem keepsPhase_settle : KeepsPhase settle :=
  .bind .get fun _ => .bind (keepsPhase_giveWay _) fun _ => keepsPhase_drain

theorem keepsPhase_turnStore (target : Target) : KeepsPhase (turnStore target) := by
  cases target <;> exact .command _

theorem keepsPhase_newToken : KeepsPhase newToken := fun _ => ⟨rfl, legal_ok _⟩

theorem keepsPhase_identify (d : Descriptor) : KeepsPhase (identify d) := by
  unfold identify
  split
  · exact .pure _
  · exact .bind keepsPhase_newToken fun _ => .pure _

theorem keepsPhase_fillCaches (signature : Signature) : KeepsPhase (fillCaches signature) :=
  .bind (.attempt (.command _) fun _ => .pure _) fun _ =>
    .bind (.attempt (.command _) fun _ => .pure _) fun _ => .modify fun _ => rfl

theorem keepsPhase_loadContent (d : Descriptor) : KeepsPhase (loadContent d) :=
  .bind .get fun _ => .command _

theorem keepsPhase_setScope (signature : Signature) : KeepsPhase (setScope signature) :=
  .modify fun _ => rfl

theorem keepsPhase_perform (a : DocumentAction) : KeepsPhase (perform a) := .modify fun _ => rfl

theorem keepsPhase_restoreStore (w : ActiveWorkbook) : KeepsPhase (restoreStore w) :=
  .bind (keepsPhase_turnStore _) fun _ => .bind .get fun _ => .bind (.command _) fun _ => .pure _

theorem keepsPhase_mayDiscard : KeepsPhase mayDiscard := by
  intro s
  show Stays s.phase ((if s.collaboration then pure true
    else if !s.document.isDirty then pure true
    else do
      set { s with prompts := s.prompts.discard.2 }
      return s.prompts.discard.1 : SessionM Bool).run s)
  split
  · exact ⟨rfl, legal_ok _⟩
  · split
    · exact ⟨rfl, legal_ok _⟩
    · exact ⟨rfl, legal_ok _⟩

theorem keepsPhase_activeWorkbook : KeepsPhase activeWorkbook := by
  refine .bind .get fun s => ?_
  split
  · exact .pure _
  · exact .throw id

theorem keepsPhase_choosePath : KeepsPhase choosePath := fun _ => ⟨rfl, legal_ok _⟩

theorem keepsPhase_writeOut (path : String) : KeepsPhase (writeOut path) :=
  .bind keepsPhase_settle fun _ => .bind (.command _) fun _ => keepsPhase_perform _

theorem keepsPhase_rename (w : ActiveWorkbook) (path : String) : KeepsPhase (rename w path) :=
  .bind (.modify fun _ => rfl) fun _ => .modify fun _ => rfl

/-! ## The outline of a request -/

def outlineRunHook (w : ActiveWorkbook) : Outline (runHook w) :=
  .bind .get fun s =>
    match s.hook with
    | none => .other (.pure ())
    | some _ => .ite (.other (.pure ())) (.bind (.advance _) fun _ =>
        .other (.bind (.modify fun _ => rfl) fun _ => .bind (.pause _) fun _ => keepsPhase_drain))

def outlineConclude : Outline conclude :=
  let rest (previous : Option ActiveWorkbook) : Outline (do
      match previous with
      | some w => runHook w
      | none => pure ()
      return previous : SessionM (Option ActiveWorkbook)) :=
    match previous with
    | some w => .bind (outlineRunHook w) fun _ => .other (.pure _)
    | none => .other (.pure _)
  .bind (.advance _) fun _ => .bind (.other keepsPhase_settle) fun _ => .bind .get fun s =>
    rest s.active

def outlineInstall (d : Descriptor) (signature : Signature) (content : Snapshot) :
    Outline (install d signature content) :=
  .bind (.other (keepsPhase_perform _)) fun _ => .bind (.other (keepsPhase_perform _)) fun _ =>
    .bind (.other (keepsPhase_fillCaches _)) fun _ => .bind (.other (keepsPhase_identify _)) fun _ =>
      .bind (.advance _) fun _ => .bind (.write _) fun _ => .write _

def outlineLoadTarget (d : Descriptor) : Outline (loadTarget d) :=
  .bind (.other keepsPhase_newToken) fun _ => .bind (.other (.command _)) fun _ =>
    .bind (.other (keepsPhase_setScope _)) fun _ => .bind (.advance _) fun _ =>
      .bind (.other (keepsPhase_loadContent d)) fun _ => outlineInstall d _ _

def outlineReturnToIdle : Outline returnToIdle :=
  .bind (.other keepsPhase_newToken) fun _ => .bind (.other (keepsPhase_setScope _)) fun _ =>
    .write _

def outlineRollBack (previous : Option ActiveWorkbook) (turned : Bool) :
    Outline (rollBack previous turned) :=
  .bind (.write _) fun _ =>
    match previous with
    | none => outlineReturnToIdle
    | some w => .ite
      (.bind (.attempt (.other (keepsPhase_restoreStore w)) fun e =>
        .bind outlineReturnToIdle fun _ => .throw e) fun _ =>
          .bind (.other (keepsPhase_setScope _)) fun _ => .write _)
      (.bind (.other (keepsPhase_setScope _)) fun _ => .write _)

def outlineRecover (previous : Option ActiveWorkbook) (turned : Bool) (e : SyncError) :
    Outline (recover previous turned e) :=
  .attempt (.bind (outlineRollBack previous turned) fun _ => .other (.pure _)) fun _ =>
    .other (.pure _)

def outlineSwap (target : Target) (previous : Option ActiveWorkbook) :
    Outline (swap target previous) :=
  .bind (.advance _) fun _ => .bind (.other (.modify fun _ => rfl)) fun _ =>
    .bind (.attempt (.other (keepsPhase_turnStore target)) fun e =>
      .bind (outlineRecover previous false e) fun e => .throw e) fun d =>
    .bind (.attempt (outlineLoadTarget d) fun e =>
      .bind (outlineRecover previous true e) fun e => .throw e) fun _ => .other (.pure _)

def outlineSwitch (target : Target) : Outline (switch target) :=
  .bind .get fun s => .bind (.advance _) fun _ => .bind (.other keepsPhase_mayDiscard) fun _ =>
    .ite (.bind outlineConclude fun _ => outlineSwap target _)
      (.bind (.advance s.phase) fun _ => .other (.pure _))

def outlineSaving {attempt : SessionM Unit} (h : KeepsPhase attempt) : Outline (saving attempt) :=
  .bind (.advance _) fun _ => .bind (.attempt (.other h) fun e =>
    .bind (.attempt (.advance _) fun _ => .other (.pure _)) fun _ => .throw e) fun _ => .advance _

def outlineSaveUnder (w : ActiveWorkbook) (path : Option String) : Outline (saveUnder w path) :=
  let rest (chosen : Option String) : Outline (match chosen with
      | none => pure .cancelled
      | some p => do
        saving do
          writeOut p
          rename w p
        return .saved p : SessionM Reply) :=
    match chosen with
    | none => .other (.pure _)
    | some p => .bind (outlineSaving (.bind (keepsPhase_writeOut p) fun _ => keepsPhase_rename w p))
      fun _ => .other (.pure _)
  match path with
  | some p => .bind (.other (.pure (some p))) rest
  | none => .bind (.other keepsPhase_choosePath) rest

def outlineSave (w : ActiveWorkbook) : Outline (save w) :=
  show Outline (match w.descriptor.savePath? with
      | none => saveUnder w none
      | some p => do
        saving (writeOut p)
        return .saved p) from
    match w.descriptor.savePath? with
    | none => outlineSaveUnder w none
    | some p => .bind (outlineSaving (keepsPhase_writeOut p)) fun _ => .other (.pure _)

/-- The outline of a request. -/
def outline (r : Request) : Outline (request r) :=
  .exclusively (match r with
    | .switch target => outlineSwitch target
    | .save => .bind (.other keepsPhase_activeWorkbook) fun w => outlineSave w
    | .saveAs path => .bind (.other keepsPhase_activeWorkbook) fun w => outlineSaveUnder w path)

/-! ## What outlines come to -/

section Goes

variable {may : Session → Event → Prop} {s t : Session} {L K : Ledger} {p q : Phase}

theorem KeepsPhase.achieves {m : SessionM α} (h : KeepsPhase m) (s : Session) (L : Ledger) :
    Achieves (Rely may) m s L fun r t _ => t.phase = s.phase ∧ Legal r := by
  intro r t K hr
  have hstays := h s
  unfold Activity.Runs at hr
  generalize m.run s = x at hstays hr
  induction hr with
  | done => exact hstays
  | paused hk _ ih =>
    refine ih (hstays.2 _ ?_)
    exact (congrArg Course.phase (course_of_meanwhile hk.1)).trans hstays.1

/-- In a phase `p` the changes of phase are allowed, and `post` holds of the end. -/
def Outline.Goes (may : Session → Event → Prop) {m : SessionM α} (o : Outline m) (p : Phase)
    (post : Except SyncError α → Phase → Prop) : Prop :=
  ∀ s L, s.phase = p →
    o.Lawful may s L ∧ Achieves (Rely may) m s L fun r t _ => post r t.phase

namespace Outline

variable {m : SessionM α} {f : α → SessionM β} {post : Except SyncError α → Phase → Prop}

theorem Goes.imp {o : Outline m} {post' : Except SyncError α → Phase → Prop}
    (h : o.Goes may p post) (himp : ∀ r q, post r q → post' r q) : o.Goes may p post' :=
  fun s L hs => ⟨(h s L hs).1, (h s L hs).2.imp fun r t _ ht => himp r t.phase ht⟩

theorem goes_other {h : KeepsPhase m} (hpost : ∀ r, Legal r → post r p) :
    (other h).Goes may p post := by
  refine fun s L hs => ⟨trivial, (h.achieves s L).imp ?_⟩
  rintro r t K ⟨ht, hr⟩
  rw [ht, hs]
  exact hpost r hr

theorem goes_pure {a : α} {h : KeepsPhase (Pure.pure a : SessionM α)} (hpost : post (.ok a) p) :
    (other h).Goes may p post := by
  rintro s L rfl
  exact ⟨trivial, (achieves_pure a).mpr hpost⟩

theorem goes_advance {post : Except SyncError Unit → Phase → Prop} (hq : p.Permits q)
    (hpost : post (.ok ()) q) : (advance q).Goes may p post := by
  rintro s L rfl
  exact ⟨hq, (achieves_advance hq).mpr hpost⟩

theorem goes_write {g : Session → Session} {post : Except SyncError PUnit → Phase → Prop}
    (hg : ∀ s, s.phase = p → (g s).phase = q) (hq : q = p ∨ p.Permits q) (hpost : post (.ok ⟨⟩) q) :
    (write g).Goes may p post := by
  rintro s L rfl
  have hphase := hg s rfl
  refine ⟨?_, (achieves_modify g).mpr (by rw [hphase]; exact hpost)⟩
  show (g s).phase = s.phase ∨ s.phase.Permits (g s).phase
  rw [hphase]
  exact hq

theorem goes_get {post : Except SyncError Session → Phase → Prop}
    (hpost : ∀ s : Session, s.phase = p → post (.ok s) p) : get.Goes may p post := by
  rintro s L rfl
  exact ⟨trivial, achieves_get.mpr (hpost s rfl)⟩

theorem goes_throw {e : SyncError} (hpost : post (.error e) p) :
    (Outline.throw e : Outline (MonadExcept.throw e : SessionM α)).Goes may p post := by
  rintro s L rfl
  exact ⟨trivial, (achieves_throw e).mpr hpost⟩

theorem goes_bind {o : Outline m} {o' : ∀ a, Outline (f a)}
    {post : Except SyncError β → Phase → Prop}
    (h : o.Goes may p fun
      | .ok a, q => (o' a).Goes may q post
      | .error e, q => post (.error e) q) : (bind o o').Goes may p post := by
  intro s L hs
  obtain ⟨hlawful, hends⟩ := h s L hs
  refine ⟨⟨hlawful, fun a t K hr => ?_⟩, achieves_bind.mpr (hends.imp fun r t K ht => ?_)⟩
  · exact (hends _ _ _ hr t K rfl).1
  · cases r with
    | ok a => exact (ht t K rfl).2
    | error e => exact ht

theorem goes_attempt {f : SyncError → SessionM α} {o : Outline m} {o' : ∀ e, Outline (f e)}
    (h : o.Goes may p fun
      | .ok a, q => post (.ok a) q
      | .error e, q => (o' e).Goes may q post) : (attempt o o').Goes may p post := by
  intro s L hs
  obtain ⟨hlawful, hends⟩ := h s L hs
  refine ⟨⟨hlawful, fun e t K hr => ?_⟩, achieves_tryCatch.mpr (hends.imp fun r t K ht => ?_)⟩
  · exact (hends _ _ _ hr t K rfl).1
  · cases r with
    | ok a => exact ht
    | error e => exact (ht t K rfl).2

theorem goes_ite {c : Prop} [Decidable c] {n : SessionM α} {o : Outline m} {o' : Outline n}
    (h : c → o.Goes may p post) (h' : ¬ c → o'.Goes may p post) :
    (ite (c := c) o o').Goes may p post := by
  intro s L hs
  refine ⟨⟨fun hc => (h hc s L hs).1, fun hc => (h' hc s L hs).1⟩, ?_⟩
  split
  · next hc => exact (h hc s L hs).2
  · next hc => exact (h' hc s L hs).2

/-- What has nothing to do with the phase leads on in the same phase, or to an error there. -/
theorem goes_other_bind {h : KeepsPhase m} {o : ∀ a, Outline (f a)}
    {post : Except SyncError β → Phase → Prop}
    (herror : ∀ e : SyncError, ¬ e.IsIllegal → post (.error e) p)
    (hok : ∀ a, (o a).Goes may p post) : (bind (other h) o).Goes may p post := by
  refine goes_bind (goes_other fun r hr => ?_)
  cases r with
  | ok a => exact hok a
  | error e => exact herror e (hr e rfl)

theorem goes_advance_bind {f : Unit → SessionM β} {o : ∀ a, Outline (f a)}
    {post : Except SyncError β → Phase → Prop} (hq : p.Permits q)
    (h : (o ()).Goes may q post) : (bind (advance q) o).Goes may p post :=
  goes_bind (goes_advance hq h)

theorem goes_write_bind {g : Session → Session} {f : PUnit → SessionM β} {o : ∀ a, Outline (f a)}
    {post : Except SyncError β → Phase → Prop} (hg : ∀ s, s.phase = p → (g s).phase = q)
    (hq : q = p ∨ p.Permits q) (h : (o ⟨⟩).Goes may q post) : (bind (write g) o).Goes may p post :=
  goes_bind (goes_write hg hq h)

end Outline

open Outline

/-! ## Changing the workbook -/

theorem goes_runHook (w : ActiveWorkbook) : (outlineRunHook w).Goes may .draining fun r q =>
    Legal r ∧ (q = .draining ∨ q = .beforeClose) := by
  refine goes_bind (goes_get fun s _ => ?_)
  dsimp only
  generalize s.hook = hook
  cases hook with
  | none => exact goes_other fun r hr => ⟨hr, .inl rfl⟩
  | some hook =>
    refine goes_ite (fun _ => goes_other fun r hr => ⟨hr, .inl rfl⟩) fun _ => ?_
    exact goes_advance_bind (by decide) (goes_other fun r hr => ⟨hr, .inr rfl⟩)

theorem goes_conclude : outlineConclude.Goes may .confirming fun r q =>
    Legal r ∧ (q = .draining ∨ q = .beforeClose) := by
  refine goes_advance_bind (by decide) (goes_other_bind (fun e he => ⟨legal_error he, .inl rfl⟩) ?_)
  refine fun _ => goes_bind (goes_get fun s _ => ?_)
  dsimp only
  generalize s.active = previous
  cases previous with
  | none => exact goes_other fun r hr => ⟨hr, .inl rfl⟩
  | some w =>
    refine goes_bind ((goes_runHook w).imp ?_)
    rintro (e | _) q ⟨hr, hq⟩
    · exact ⟨legal_error (hr e rfl), hq⟩
    · exact goes_other fun r hr => ⟨hr, hq⟩

/-- Content that cannot be installed fails while it is loaded. -/
theorem goes_install (d : Descriptor) (signature : Signature) (content : Snapshot) :
    (outlineInstall d signature content).Goes may .loading fun r q =>
      Legal r ∧ ∀ e, r = .error e → q = .closing ∨ q = .loading := by
  refine goes_other_bind (fun e he => ⟨legal_error he, fun _ _ => .inr rfl⟩) fun _ => ?_
  refine goes_other_bind (fun e he => ⟨legal_error he, fun _ _ => .inr rfl⟩) fun _ => ?_
  refine goes_other_bind (fun e he => ⟨legal_error he, fun _ _ => .inr rfl⟩) fun _ => ?_
  refine goes_other_bind (fun e he => ⟨legal_error he, fun _ _ => .inr rfl⟩) fun id => ?_
  -- from here on nothing fails
  refine goes_advance_bind (by decide) ?_
  refine goes_write_bind (q := .active) (fun _ _ => rfl) (.inl rfl) ?_
  exact goes_write (fun s hs => hs) (.inl rfl) ⟨legal_ok _, by rintro e ⟨⟩⟩

theorem goes_loadTarget (d : Descriptor) : (outlineLoadTarget d).Goes may .closing fun r q =>
    Legal r ∧ ∀ e, r = .error e → q = .closing ∨ q = .loading := by
  refine goes_other_bind (fun e he => ⟨legal_error he, fun _ _ => .inl rfl⟩) fun _ => ?_
  refine goes_other_bind (fun e he => ⟨legal_error he, fun _ _ => .inl rfl⟩) fun signature => ?_
  refine goes_other_bind (fun e he => ⟨legal_error he, fun _ _ => .inl rfl⟩) fun _ => ?_
  refine goes_advance_bind (by decide) ?_
  refine goes_other_bind (fun e he => ⟨legal_error he, fun _ _ => .inr rfl⟩) fun content => ?_
  exact goes_install d signature content

theorem goes_returnToIdle : outlineReturnToIdle.Goes may .rollingBack fun r _ => Legal r := by
  refine goes_other_bind (fun e he => legal_error he) fun _ => ?_
  refine goes_other_bind (fun e he => legal_error he) fun _ => ?_
  exact goes_write (q := .idle) (fun _ _ => rfl) (.inr (by decide)) (legal_ok _)

/-- A change that failed may be rolled back from where it failed. -/
theorem goes_rollBack (hp : p = .closing ∨ p = .loading) (previous : Option ActiveWorkbook)
    (turned : Bool) : (outlineRollBack previous turned).Goes may p fun r _ => Legal r := by
  have hpermits : p.Permits .rollingBack := by rcases hp with rfl | rfl <;> decide
  refine goes_write_bind (q := .rollingBack) (fun _ _ => rfl) (.inr hpermits) ?_
  have hbind : ∀ w, (Outline.bind (.other (keepsPhase_setScope w.signature)) fun _ =>
      .write _ : Outline (do setScope w.signature; bind w)).Goes may .rollingBack fun r _ =>
        Legal r := by
    intro w
    refine goes_other_bind (fun e he => legal_error he) fun _ => ?_
    exact goes_write (q := .active) (fun _ _ => rfl) (.inr (by decide)) (legal_ok _)
  cases previous with
  | none => exact goes_returnToIdle
  | some w =>
    refine goes_ite (fun _ => goes_bind (goes_attempt (goes_other fun r hr => ?_))) fun _ => hbind w
    cases r with
    | ok => exact hbind w
    | error e =>
      refine goes_bind (goes_returnToIdle.imp ?_)
      rintro (e' | _) q hr'
      · exact hr'
      · exact goes_throw (legal_error (hr e rfl))

/-- The error that a change ends with tells of no phase if the one that it failed with does not. -/
theorem goes_recover (hp : p = .closing ∨ p = .loading) (previous : Option ActiveWorkbook)
    (turned : Bool) {e : SyncError} (he : ¬ e.IsIllegal) :
    (outlineRecover previous turned e).Goes may p fun r _ =>
      ∃ e', r = .ok e' ∧ ¬ e'.IsIllegal := by
  refine goes_attempt (goes_bind ((goes_rollBack hp previous turned).imp ?_))
  rintro (e' | _) q hr
  · exact goes_pure ⟨_, rfl, fun h => h.elim he (hr e' rfl)⟩
  · exact goes_pure ⟨e, rfl, he⟩

theorem goes_swap (hp : p = .draining ∨ p = .beforeClose) (target : Target)
    (previous : Option ActiveWorkbook) :
    (outlineSwap target previous).Goes may p fun r _ => Legal r := by
  have hpermits : p.Permits .closing := by rcases hp with rfl | rfl <;> decide
  have hrecover : ∀ {α : Type} {q : Phase} (turned : Bool) {e : SyncError},
      q = .closing ∨ q = .loading → ¬ e.IsIllegal →
      (Outline.bind (outlineRecover previous turned e) fun e => .throw e :
        Outline (do throw (← recover previous turned e) : SessionM α)).Goes may q fun r _ =>
          ∃ e', r = .error e' ∧ ¬ e'.IsIllegal := by
    intro α q turned e hq he
    refine goes_bind ((goes_recover hq previous turned he).imp ?_)
    rintro _ q ⟨e', rfl, he'⟩
    exact goes_throw ⟨e', rfl, he'⟩
  refine goes_advance_bind hpermits (goes_other_bind (fun e he => legal_error he) fun _ => ?_)
  refine goes_bind (goes_attempt (goes_other fun r hr => ?_))
  cases r with
  | error e =>
    refine (hrecover false (.inl rfl) (hr e rfl)).imp ?_
    rintro _ q ⟨e', rfl, he'⟩
    exact legal_error he'
  | ok d =>
    refine goes_bind (goes_attempt ((goes_loadTarget d).imp ?_))
    rintro (e | _) q ⟨hr, hq⟩
    · refine (hrecover true (hq e rfl) (hr e rfl)).imp ?_
      rintro _ q ⟨e', rfl, he'⟩
      exact legal_error he'
    · exact goes_pure (legal_ok _)

theorem goes_switch (hp : p = .idle ∨ p = .active) (target : Target) :
    (outlineSwitch target).Goes may p fun r _ => Legal r := by
  have hconfirm : p.Permits .confirming := by rcases hp with rfl | rfl <;> decide
  have hresume : Phase.confirming.Permits p := by rcases hp with rfl | rfl <;> decide
  refine goes_bind (goes_get fun s hs => ?_)
  refine goes_advance_bind hconfirm (goes_other_bind (fun e he => legal_error he) fun answer => ?_)
  refine goes_ite (fun _ => goes_bind (goes_conclude.imp ?_)) fun _ => ?_
  · rintro (e | previous) q ⟨hr, hq⟩
    · exact legal_error (hr e rfl)
    · exact goes_swap hq target previous
  · rw [hs]
    exact goes_advance_bind hresume (goes_pure (legal_ok _))

/-! ## Saving -/

theorem goes_saving {attempt : SessionM Unit} (h : KeepsPhase attempt) :
    (outlineSaving h).Goes may .active fun r _ => Legal r := by
  refine goes_advance_bind (by decide) (goes_bind (goes_attempt (goes_other fun r hr => ?_)))
  cases r with
  | ok => exact goes_advance (by decide) (legal_ok _)
  | error e =>
    refine goes_bind (goes_attempt (goes_advance (by decide) ?_))
    exact goes_throw (legal_error (hr e rfl))

theorem goes_saving_bind {attempt : SessionM Unit} (h : KeepsPhase attempt) (r : Reply) :
    (Outline.bind (outlineSaving h) fun _ => .other (.pure r)).Goes may .active fun r _ =>
      Legal r := by
  refine goes_bind ((goes_saving h).imp ?_)
  rintro (e | _) q hr
  · exact legal_error (hr e rfl)
  · exact goes_pure (legal_ok _)

theorem goes_saveUnder (w : ActiveWorkbook) (path : Option String) :
    (outlineSaveUnder w path).Goes may .active fun r _ => Legal r := by
  cases path with
  | some p => exact goes_bind (goes_pure (goes_saving_bind _ _))
  | none =>
    refine goes_other_bind (fun e he => legal_error he) fun chosen => ?_
    cases chosen with
    | none => exact goes_pure (legal_ok _)
    | some p => exact goes_saving_bind _ _

theorem goes_save (w : ActiveWorkbook) : (outlineSave w).Goes may .active fun r _ => Legal r := by
  unfold outlineSave save
  generalize w.descriptor.savePath? = path
  cases path with
  | none => exact goes_saveUnder w none
  | some p => exact goes_saving_bind _ _

end Goes

/-! ## Requests -/

section Requests

variable {may : Session → Event → Prop} {s : Session} {L : Ledger}

/-- Without an active workbook nothing is saved, and no phase changes. -/
theorem lawful_of_idle {f : ActiveWorkbook → SessionM Reply} (o : ∀ w, Outline (f w))
    (hactive : s.active = none) :
    (Outline.bind (.other keepsPhase_activeWorkbook) o).Lawful may s L ∧
      Achieves (Rely may) (activeWorkbook >>= f) s L fun r _ _ => Legal r := by
  have hnone : Achieves (Rely may) activeWorkbook s L fun r _ _ => r = .error .noActiveWorkbook :=
    (atOnce_activeWorkbook_of_none hactive).achieves.mpr rfl
  refine ⟨⟨trivial, fun w t K hr => ?_⟩, achieves_bind.mpr (hnone.imp ?_)⟩
  · cases hnone _ _ _ hr
  · rintro _ t K rfl
    exact legal_error id

/-- Whatever a session at rest is asked to do, every change of phase on the way is allowed, and it
does not fail for its phase. -/
theorem AtRest.lawful (hs : s.AtRest) (r : Request) (L : Ledger) :
    (outline r).Lawful may s L ∧
      Achieves (Rely may) (Session.request r) s L fun reply _ _ => Legal reply := by
  suffices h : ∀ {m : SessionM Reply} (o : Outline m), (o.Lawful may { s with isBusy := true } L ∧
      Achieves (Rely may) m { s with isBusy := true } L fun reply _ _ => Legal reply) →
      (Outline.exclusively o).Lawful may s L ∧
        Achieves (Rely may) (exclusively m) s L fun reply _ _ => Legal reply by
    have hphase : s.phase = if s.active.isSome then .active else .idle := hs.stable.phase
    have hsave : ∀ {f : ActiveWorkbook → SessionM Reply} (o : ∀ w, Outline (f w)),
        (∀ w, (o w).Goes may .active fun r _ => Legal r) →
        (Outline.bind (.other keepsPhase_activeWorkbook) o).Lawful may { s with isBusy := true } L ∧
          Achieves (Rely may) (activeWorkbook >>= f) { s with isBusy := true } L
            fun reply _ _ => Legal reply := by
      intro f o ho
      cases hactive : s.active with
      | none => exact lawful_of_idle o rfl
      | some w =>
        rw [hactive] at hphase
        exact Outline.goes_other_bind (fun e he => legal_error he) ho _ L hphase
    cases r with
    | switch target => exact h _ (goes_switch hs.stable.phase_eq target _ L rfl)
    | save => exact h _ (hsave _ goes_save)
    | saveAs path => exact h _ (hsave _ fun w => goes_saveUnder w path)
  intro m o ⟨hlawful, hends⟩
  exact ⟨fun _ => hlawful, (achieves_exclusively hs.isBusy).mpr hends⟩

/-- While a request is under way, every other one is turned away. -/
theorem achieves_request_of_busy (hbusy : s.isBusy) (r : Request) :
    Achieves (Rely may) (Session.request r) s L fun reply t K =>
      reply = .error .transitionInProgress ∧ t = s ∧ K = L := by
  refine achieves_bind.mpr (achieves_get.mpr ?_)
  dsimp only
  rw [if_pos hbusy]
  exact achieves_bind.mpr ((achieves_throw _).mpr ⟨rfl, rfl, rfl⟩)

end Requests

end Session
end SheetSync
