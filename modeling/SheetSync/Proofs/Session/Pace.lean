import SheetSync.Proofs.Session.Agreement
import SheetSync.Proofs.Session.Rest
/-!
Sessions at any pace. A session that others act on and that answers requests may give way as often
as it likes, and wait for its writes between them as often as it likes: `Plays`. What there is to
see after each operation, and what is in the store in the end, does not depend on it: `plays_agree`,
and `play_agree` for sessions that run alone.
-/
namespace SheetSync.Session

/-- What is done with a session. -/
inductive Operation where
  | event (e : Event)
  | request (r : Request)

/-- What there is to see after an operation: the answer if something was asked for, the document,
and the files but for their times. -/
structure Report where
  reply : Option (Except SyncError Reply)
  document : Document
  files : FileTree

variable {s t u v : Session} {o : Operation} {ops : List Operation} {reports reports' : List Report}

def report (reply : Option (Except SyncError Reply)) (s : Session) : Report :=
  ⟨reply, s.document, s.store.files.untimed⟩

/-- What an operation may come to. -/
inductive Does : Operation → Session → Option (Except SyncError Reply) → Session → Prop
  | event {e : Event} {s : Session} (he : IsAside e) : Does (.event e) s none (e.apply s)
  | request {r : Request} {s t : Session} {reply : Except SyncError Reply}
    (h : Activity.Runs Paced (request r).run s () reply t ()) : Does (.request r) s (some reply) t

/-- What a session may come to with nothing done: it gives way, or waits for its writes, any number
of times. -/
inductive Waits (s : Session) : Session → Prop
  | none : Waits s s
  | turn {t u : Session} : Waits s t → Paced .turn t () u () → Waits s u
  | settle {t u : Session} {r : Except SyncError Unit} :
    Waits s t → Activity.Runs Paced settle.run t () r u () → Waits s u

/-- What operations in turn may come to, and the reports after each of them. -/
inductive Plays : Session → List Operation → List Report → Session → Prop
  | done {s t : Session} : Waits s t → Plays s [] [] t
  | next {s t u v : Session} {o : Operation} {ops : List Operation} {reports : List Report}
    {reply : Option (Except SyncError Reply)} : Waits s t → Does o t reply u →
    Plays u ops reports v → Plays s (o :: ops) (u.report reply :: reports) v

/-! ## Running alone -/

theorem runs_perform {α : Type} (m : SessionM α) (s : Session) :
    Activity.Runs Paced m.run s () (m.perform s).1 (m.perform s).2 () :=
  Progress.runs_finish (fun _ _ _ => .inl rfl) _ _

/-- An operation on a session that runs alone. -/
def operate : Operation → Session → Option (Except SyncError Reply) × Session
  | .event e, s => (none, e.apply s)
  | .request r, s => ((request r).perform s).map some id

/-- Operations in turn on a session that runs alone. -/
def play : List Operation → Session → List Report × Session
  | [], s => ([], s)
  | o :: ops, s =>
    let (reply, t) := operate o s
    let (reports, u) := play ops t
    (t.report reply :: reports, u)

theorem does_operate (ho : ∀ e, o = .event e → IsAside e) (s : Session) :
    Does o s (operate o s).1 (operate o s).2 := by
  cases o with
  | event e => exact .event (ho e rfl)
  | request r => exact .request (runs_perform _ s)

/-- Running alone is one pace of all. -/
theorem plays_play (hops : ∀ e, .event e ∈ ops → IsAside e) (s : Session) :
    Plays s ops (play ops s).1 (play ops s).2 := by
  induction ops generalizing s with
  | nil => exact .done .none
  | cons o ops ih =>
    have hdoes := does_operate (fun e he => hops e (he ▸ List.mem_cons_self)) s
    exact .next .none hdoes (ih (fun e he => hops e (List.mem_cons_of_mem _ he)) _)

/-! ## Two paces -/

theorem Waits.keeps (h : Waits s t) (hs : s.Local) : t.Local ∧ t.gist = s.gist := by
  induction h with
  | none => exact ⟨hs, rfl⟩
  | turn _ hturn ih => exact paced_turn hturn ih
  | settle _ hsettle ih =>
    obtain ⟨-, -, hlocal, hgist⟩ := achieves_settle_settled ih.1 _ _ _ hsettle
    exact ⟨hlocal, hgist.trans ih.2⟩

theorem Resting.waits (h : Resting s t) (hs : Waits s u) (ht : Waits t v) : Resting u v := by
  obtain ⟨⟨x, h⟩, hbusy⟩ := h
  obtain ⟨hu, hs⟩ := hs.keeps h.left
  obtain ⟨hv, ht⟩ := ht.keeps h.right
  exact ⟨⟨x, h.of_gist hu hs hv ht⟩, (congrArg Gist.isBusy hs).trans hbusy⟩

theorem Does.agree {reply reply' : Option (Except SyncError Reply)} (h : Resting s t)
    (hs : Does o s reply u) (ht : Does o t reply' v) : reply = reply' ∧ Resting u v := by
  cases hs with
  | event he =>
    cases ht
    obtain ⟨⟨x, h⟩, hbusy⟩ := h
    exact ⟨rfl, ⟨x, h.apply he⟩, (congrArg Course.isBusy (course_apply s _)).trans hbusy⟩
  | @request r _ _ q hs =>
    cases ht with
    | @request _ _ _ q' ht =>
      have hends := lockstep_request r s t h _ _ _ hs _ _ _ ht
      rcases q with e | a <;> rcases q' with e' | a'
      · exact ⟨congrArg (some ∘ Except.error) hends.1, hends.2⟩
      · exact hends.elim
      · exact hends.elim
      · exact ⟨congrArg (some ∘ Except.ok) hends.1, hends.2⟩

theorem Resting.report (h : Resting s t) (reply : Option (Except SyncError Reply)) :
    s.report reply = t.report reply := by
  obtain ⟨⟨x, h⟩, -⟩ := h
  have hfiles : s.store.files.untimed = t.store.files.untimed := congrArg Gist.files h.gist
  rw [Session.report, Session.report, h.document, hfiles]

theorem Plays.agree (h : Resting s t) (hs : Plays s ops reports u) (ht : Plays t ops reports' v) :
    reports = reports' ∧ Resting u v := by
  induction hs generalizing t reports' with
  | done hs =>
    cases ht with
    | done ht => exact ⟨rfl, h.waits hs ht⟩
  | next hs hdoes _ ih =>
    cases ht with
    | next ht hdoes' hrest =>
      obtain ⟨rfl, hnext⟩ := hdoes.agree (h.waits hs ht) hdoes'
      obtain ⟨rfl, hend⟩ := ih hnext hrest
      exact ⟨by rw [hnext.report], hend⟩

/-! ## Sessions that start alike -/

/-- Whether a session differs from another one at most in how often it gives way, in the session
tokens that it gives out, and in the times of its files. -/
def Twins (s t : Session) : Prop := ∃ ticks tokens files, files.untimed = s.store.files.untimed ∧
  t = { s with config := { s.config with ticks }, tokens, store := { s.store with files } }

theorem Twins.resting (h : Twins s t) (hs : s.Local) (hbusy : s.isBusy = false) : Resting s t := by
  obtain ⟨ticks, tokens, files, hfiles, rfl⟩ := h
  refine ⟨⟨_, hs, ⟨hs.wired.congr rfl rfl rfl, hs.kind, hs.watch⟩, ?_, rfl⟩, hbusy⟩
  exact congrArg (fun files => { s.gist with files }) hfiles.symm

/-- The same operations on sessions over local stores are followed by the same reports, at whatever
pace each session goes; and when both have then waited for their writes, the workbooks of their
stores are the same. -/
theorem plays_agree {s₀ t₀ : Session} (hnew : s₀.IsNew) (hkind : s₀.store.kind = .local)
    (hwatch : s₀.store.watch = none) (htwins : Twins s₀ t₀) (hs : Plays s₀ ops reports s)
    (ht : Plays t₀ ops reports' t) :
    reports = reports' ∧ ∀ {r r' u v}, Activity.Runs Paced settle.run s () r u () →
      Activity.Runs Paced settle.run t () r' v () →
      r = .ok () ∧ r' = .ok () ∧ u.store.workbook = v.store.workbook := by
  obtain ⟨hreports, ⟨x, hend⟩, -⟩ :=
    hs.agree (htwins.resting ⟨hnew.wired, hkind, hwatch⟩ hnew.atRest.isBusy) ht
  refine ⟨hreports, fun {r r' u v} hu hv => ?_⟩
  have hends := lockstep_settle (K := fun _ _ => False) s t hend _ _ _ hu _ _ _ hv
  rcases r with e | a <;> rcases r' with e' | a'
  · exact hends.2.elim
  · exact hends.elim
  · exact hends.elim
  · exact ⟨rfl, rfl, hends.2.workbook⟩

/-- A new workbook in which someone changes one cell, and that is then saved. -/
def changeSaved : List Operation :=
  [.request (.switch .blank), .event (.act oneChange), .request (.saveAs (some "book"))]

/-- A new session that gives way twice before it waits for its writes, with tokens of its own. -/
def slow : Session := { on {} with config := { ticks := 2 }, tokens := { key := 1 } }

theorem plays_agree_changeSaved : ∃ s t reports, Plays (.on {}) changeSaved reports s ∧
    Plays slow changeSaved reports t ∧
    (reports.take 2).map (·.reply) = [some (.ok (.completed Workbook.blank.descriptor)), none] ∧
    (settle.perform s).2.store.workbook = (settle.perform t).2.store.workbook := by
  have haside : ∀ e, .event e ∈ changeSaved → IsAside e := by
    intro e he
    obtain rfl : e = .act oneChange := by simpa [changeSaved] using he
    trivial
  have hs := plays_play haside (.on {})
  -- the slow session waits for the change once more before it is asked to save
  obtain ⟨reports, t, ht⟩ : ∃ reports t, Plays slow changeSaved reports t :=
    ⟨_, _, .next .none (.request (runs_perform _ _)) (.next .none (.event trivial)
      (.next (.settle .none (runs_perform settle _)) (.request (runs_perform _ _)) (.done .none)))⟩
  obtain ⟨hreports, hbooks⟩ :=
    plays_agree (isNew_on {}) rfl rfl ⟨2, { key := 1 }, {}, rfl, rfl⟩ hs ht
  refine ⟨_, t, _, hs, hreports ▸ ht, ?_,
    (hbooks (runs_perform settle _) (runs_perform settle _)).2.2⟩
  decide +kernel

/-- It does not matter how often a session gives way. -/
theorem play_agree (hnew : s.IsNew) (hkind : s.store.kind = .local) (hwatch : s.store.watch = none)
    (hops : ∀ e, .event e ∈ ops → IsAside e) (ticks : Nat) :
    (play ops { s with config := { s.config with ticks } }).1 = (play ops s).1 := by
  have htwins : Twins s { s with config := { s.config with ticks } } :=
    ⟨ticks, s.tokens, s.store.files, rfl, rfl⟩
  exact ((plays_play hops s).agree (htwins.resting ⟨hnew.wired, hkind, hwatch⟩ hnew.atRest.isBusy)
    (plays_play hops _)).1.symm

end SheetSync.Session
