import SheetSync.Session.Save
import SheetSync.Proofs.Link
/-!
Runs of sessions: requests, one after the other, and in between and at every pause of a request the
events that others bring about. A user edits the document, the queue carries out a write, listeners
come and go, and whatever surrounds the session changes. An onlooker notes which writes the changes
called for, which writes were carried out, and where the store logged them. A condition `may` on
events says which of them can happen; by `Wired.attend_meanwhile` a session that runs alone is a
case of this.
-/
namespace SheetSync

/-- What others do to a session. -/
inductive Event where
  /-- Someone acts on the document. -/
  | act (a : DocumentAction)
  /-- The first write that waits is carried out. -/
  | carry
  | watch (label : String) (unsubscribes : Option String) (answer : Option DocumentAction)
  | unwatch (label : String)
  /-- Others begin or cease to hold the document too. -/
  | collaboration (isOn : Bool)
  | prompts (p : Prompts)
  /-- The hook is to do something else from now on. -/
  | hook (action : Option DocumentAction) (fails : Bool)
  | refresh (book : RefreshBook)
  | caches (c : WorkbookCaches)
  /-- What the store keeps and reaches changes, and which commands fail. -/
  | store (workbook : Option Workbook) (files : FileTree) (switches : Watch)

/-- A request, what it came to, and how many calls the store had logged before and after it. -/
structure Answer where
  request : Request
  reply : Except SyncError Reply
  start : Nat
  stop : Nat

/-- What an onlooker notes of a run. -/
structure Ledger where
  /-- The writes that the changes so far called for. -/
  planned : List Write := []
  /-- The writes that were carried out, each with the number of calls logged before. -/
  carried : List (Nat × Write) := []
  answers : List Answer := []

/-- The ledger with a request noted that took a session from `s` to `t`. -/
def Ledger.answered (L : Ledger) (request : Request) (reply : Except SyncError Reply)
    (s t : Session) : Ledger :=
  { L with answers := L.answers ++
    [{ request, reply, start := s.store.calls.length, stop := t.store.calls.length }] }

namespace Event

/-- The session after an event. -/
def apply (s : Session) : Event → Session
  | .act a => { s with toLink := s.toLink.perform a }
  | .carry => { s with toLink := s.toLink.carry }
  | .watch label unsubscribes answer =>
    { s with document := s.document.watch label unsubscribes answer }
  | .unwatch label => { s with document := s.document.unsubscribeLabel label }
  | .collaboration isOn => { s with collaboration := isOn }
  | .prompts p => { s with prompts := p }
  | .hook action fails => { s with hook := s.hook.map fun h => { h with action, fails } }
  | .refresh book => { s with refresh := book }
  | .caches c => { s with caches := c }
  | .store workbook files switches =>
    { s with
      store := { s.store with
        workbook, files, watch := s.store.watch.map fun w => { switches with calls := w.calls } } }

/-- What an onlooker notes of an event. -/
def note (s : Session) (L : Ledger) : Event → Ledger
  | .act a => { L with planned := L.planned ++ s.toLink.planned a }
  | .carry =>
    match s.toLink.pending with
    | w :: _ => { L with carried := L.carried ++ [(s.store.calls.length, w)] }
    | [] => L
  | _ => L

theorem planned_note_carry (s : Session) (L : Ledger) :
    (carry.note s L).planned = L.planned := by
  simp only [note]
  cases s.toLink.pending <;> rfl

end Event

variable {may may' : Session → Event → Prop} {s t u : Session} {L K M : Ledger}

/-- Events that may happen, one after the other. -/
inductive Meanwhile (may : Session → Event → Prop) (s : Session) (L : Ledger) :
    Session → Ledger → Prop
  | none : Meanwhile may s L s L
  | event {t : Session} {K : Ledger} (e : Event) :
    Meanwhile may s L t K → may t e → Meanwhile may s L (e.apply t) (e.note t K)

namespace Meanwhile

/-- What every event keeps, many keep. -/
theorem keeps {I : Session → Ledger → Prop}
    (hI : ∀ s L e, may s e → I s L → I (e.apply s) (e.note s L)) (h : Meanwhile may s L t K)
    (hs : I s L) : I t K := by
  induction h with
  | none => exact hs
  | event e _ hmay ih => exact hI _ _ e hmay ih

theorem mono (hmay : ∀ s e, may s e → may' s e) (h : Meanwhile may s L t K) :
    Meanwhile may' s L t K := by
  induction h with
  | none => exact .none
  | event e _ he ih => exact ih.event e (hmay _ e he)

end Meanwhile

namespace Session

/-- What can happen while a session waits. Who waits for the queue goes on when it is idle. -/
def Rely (may : Session → Event → Prop) (k : Pause) (s : Session) (L : Ledger) (t : Session)
    (K : Ledger) : Prop := Meanwhile may s L t K ∧ (k = .queue → t.isIdle)

theorem Rely.mono (hmay : ∀ s e, may s e → may' s e) {k : Pause} (h : Rely may k s L t K) :
    Rely may' k s L t K := ⟨h.1.mono hmay, h.2⟩

/-- A session as it is created, whatever surrounds it. -/
def IsNew (s : Session) : Prop :=
  ∃ base, create s.config s.store = .ok base ∧
    s = { base with
      prompts := s.prompts, hook := s.hook, services := s.services, tokens := s.tokens,
      collaboration := s.collaboration, refresh := s.refresh, caches := s.caches }

end Session

/-- The states that a session comes to, and what an onlooker noted by then. -/
inductive Run (may : Session → Event → Prop) (s : Session) : Session → Ledger → Prop
  | start : Run may s s {}
  | event {t : Session} {K : Ledger} (e : Event) :
    Run may s t K → may t e → Run may s (e.apply t) (e.note t K)
  | request {t u : Session} {K M : Ledger} (r : Request) {reply : Except SyncError Reply} :
    Run may s t K →
    Activity.Runs (Session.Rely may) (Session.request r).run t K reply u M →
    Run may s u (M.answered r reply t u)

theorem Run.mono {s₀ : Session} (hmay : ∀ s e, may s e → may' s e) (h : Run may s₀ s L) :
    Run may' s₀ s L := by
  induction h with
  | start => exact .start
  | event e _ he ih => exact ih.event e (hmay _ e he)
  | request r _ hreq ih => exact ih.request r (hreq.mono fun hk => hk.mono hmay)

/-! ## What events leave as it is -/

/-- What nothing but a request changes in a session. -/
structure Course where
  phase : Phase
  active : Option ActiveWorkbook
  sync : Option Nat
  hookFor : Option WorkbookId
  isBusy : Bool
  config : Config
  services : List Service
  tokens : TokenSource
  isHooked : Bool

namespace Session

def course (s : Session) : Course where
  phase := s.phase
  active := s.active
  sync := s.sync
  hookFor := s.hookFor
  isBusy := s.isBusy
  config := s.config
  services := s.services
  tokens := s.tokens
  isHooked := s.hook.isSome

@[simp] theorem course_apply (s : Session) (e : Event) : (e.apply s).course = s.course := by
  cases e <;> simp [Event.apply, course]

theorem course_of_meanwhile (h : Meanwhile may s L t K) : t.course = s.course :=
  h.keeps (I := fun t _ => t.course = s.course) (fun t _ e _ ht => (course_apply t e).trans ht) rfl

theorem kind_apply (s : Session) (e : Event) : (e.apply s).store.kind = s.store.kind := by
  cases e with
  | act a =>
    show (s.toLink.perform a).store.kind = s.store.kind
    rw [Link.store_perform]
  | carry =>
    show s.toLink.carry.store.kind = s.store.kind
    rw [Link.store_carry]
    cases s.toLink.pending.head? with
    | none => rfl
    | some w =>
      obtain ⟨workbook, h⟩ := Store.exists_perform_apply_eq w s.store
      show ((Store.apply w).perform s.store).2.kind = s.store.kind
      rw [h]
      rfl
  | _ => rfl

/-- A write leaves the path of the store's workbook. -/
theorem path_carry (s : Session) : (Event.carry.apply s).store.workbook.map Workbook.path =
    s.store.workbook.map Workbook.path := by
  show s.toLink.carry.store.workbook.map Workbook.path = _
  rw [Link.store_carry]
  cases s.toLink.pending.head? with
  | none => rfl
  | some w =>
    -- a write changes cells at most
    have hdescriptor := congrArg (Option.map Descriptor.path)
      (Store.descriptor_perform_apply w s.store)
    simp only [Option.map_map] at hdescriptor
    exact hdescriptor

theorem isSome_watch_apply (s : Session) (e : Event) :
    (e.apply s).store.watch.isSome = s.store.watch.isSome := by
  cases e with
  | act a =>
    show (s.toLink.perform a).store.watch.isSome = s.store.watch.isSome
    rw [Link.store_perform]
  | carry =>
    show s.toLink.carry.store.watch.isSome = s.store.watch.isSome
    rw [Link.store_carry]
    cases s.toLink.pending.head? with
    | none => rfl
    | some w => exact Store.isSome_watch_perform_apply w s.store
  | store => exact Option.isSome_map
  | _ => rfl

theorem watch_apply_eq_none (h : s.store.watch = none) (e : Event) :
    (e.apply s).store.watch = none := by
  have hsome := isSome_watch_apply s e
  rw [h] at hsome
  exact Option.not_isSome_iff_eq_none.mp (by rw [hsome]; exact Bool.false_ne_true)

/-! ## The wiring -/

/-- The document's changes are handed on while a listener is kept for it, and only then; what waits
are plain writes, and none waits when no changes are handed on. -/
structure Wired (s : Session) : Prop where
  document : s.document.WellFormed
  forwards : s.document.forwards = s.sync.toList
  plain : s.queue.IsPlain
  idle : s.sync = none → s.queue.waiting = []

namespace Wired

/-- Only the document, the queue and the listener matter. -/
theorem congr (h : s.Wired) (hdocument : t.document = s.document) (hqueue : t.queue = s.queue)
    (hsync : t.sync = s.sync) : t.Wired := by
  refine ⟨?_, ?_, ?_, ?_⟩
  · rw [hdocument]
    exact h.document
  · rw [hdocument, hsync]
    exact h.forwards
  · rw [hqueue]
    exact h.plain
  · rw [hqueue, hsync]
    exact h.idle

theorem planned_eq_nil (h : s.Wired) (hsync : s.sync = none) (a : DocumentAction) :
    s.toLink.planned a = [] := by
  refine Link.planned_eq_nil h.document ?_ a
  rw [h.forwards, hsync]
  rfl

theorem apply_act (h : s.Wired) (a : DocumentAction) : ((Event.act a).apply s).Wired := by
  -- who hands changes on stays, and without anyone nothing is enqueued
  obtain ⟨hdocument, hforwards⟩ := h.document.perform a
  have heq := Link.perform_eq s.toLink a
  refine ⟨?_, ?_, ?_, fun hsync => ?_⟩
  · show (s.toLink.perform a).document.WellFormed
    rw [heq]
    exact hdocument
  · show (s.toLink.perform a).document.forwards = s.sync.toList
    rw [heq]
    exact hforwards.trans h.forwards
  · show (s.toLink.perform a).queue.IsPlain
    rw [heq]
    exact h.plain.enqueueAll _
  · show (s.toLink.perform a).queue.waiting = []
    rw [heq, h.planned_eq_nil hsync]
    exact h.idle hsync

theorem apply_carry (h : s.Wired) : (Event.carry.apply s).Wired where
  document := h.document
  forwards := h.forwards
  plain := h.plain.runOne _ _
  idle hsync := by
    show (s.queue.runOne Link.runWrite s.store).1.waiting = []
    rw [h.plain.runOne_waiting, h.idle hsync]
    rfl

theorem apply (h : s.Wired) (e : Event) : (e.apply s).Wired := by
  cases e with
  | act a => exact h.apply_act a
  | carry => exact h.apply_carry
  | watch label unsubscribes answer =>
    exact ⟨h.document.watch .., (Document.forwards_watch ..).trans h.forwards, h.plain, h.idle⟩
  | unwatch label =>
    exact ⟨h.document.unsubscribeLabel label,
      (h.document.forwards_unsubscribeLabel label).trans h.forwards, h.plain, h.idle⟩
  | collaboration => exact h.congr rfl rfl rfl
  | prompts => exact h.congr rfl rfl rfl
  | hook => exact h.congr rfl rfl rfl
  | refresh => exact h.congr rfl rfl rfl
  | caches => exact h.congr rfl rfl rfl
  | store => exact h.congr rfl rfl rfl

/-- Writes that are carried out are events, as many as there are. -/
theorem meanwhile_carry (hmay : ∀ s, may s .carry) (n : Nat) (s : Session) (L : Ledger) :
    ∃ K, Meanwhile may s L { s with toLink := Link.carry^[n] s.toLink } K := by
  induction n with
  | zero => exact ⟨L, .none⟩
  | succ n ih =>
    obtain ⟨K, hK⟩ := ih
    rw [Function.iterate_succ_apply']
    exact ⟨_, hK.event .carry (hmay _)⟩

theorem meanwhile_drain (hmay : ∀ s, may s .carry) (s : Session) (L : Ledger) :
    ∃ K, Meanwhile may s L { s with toLink := s.toLink.drain } K := by
  obtain ⟨n, hn⟩ := Link.exists_drain_eq s.toLink
  rw [hn]
  exact meanwhile_carry hmay n s L

/-- What happens while a session runs alone is among what may happen. -/
theorem attend_meanwhile (hs : s.Wired) (hcarry : ∀ s, may s .carry) {k : Pause}
    (hact : k = .hook → ∀ a, s.hook.bind (·.action) = some a → may s (.act a)) (L : Ledger) :
    ∃ K, Rely may k s L (attend k s) K := by
  obtain ⟨K, hK⟩ := meanwhile_drain hcarry s L
  cases k with
  | turn =>
    obtain ⟨n, hn⟩ := Link.exists_turn_eq hs.plain
    obtain ⟨K, hK⟩ := meanwhile_carry hcarry n s L
    refine ⟨K, ?_, fun h => by cases h⟩
    show Meanwhile may s L { s with toLink := s.toLink.turn } K
    rw [hn]
    exact hK
  | hook =>
    show ∃ K, Rely may .hook s L s.act K
    unfold act
    split
    · next a ha => exact ⟨_, Meanwhile.none.event (.act a) (hact rfl a ha), fun h => by cases h⟩
    · exact ⟨L, .none, fun h => by cases h⟩
  | queue => exact ⟨K, hK, fun _ => Queue.isIdle_iff.mpr (Link.drain_waiting hs.plain)⟩
  | _ => exact ⟨K, hK, fun h => by cases h⟩

end Wired

end Session

namespace Course

/-- Whether a listener is kept for the active workbook, if there is one, and the hook, if there is
one, is installed for it. -/
structure IsBound (c : Course) : Prop where
  sync : c.sync.isSome = c.active.isSome
  hookFor : c.hookFor = c.active.bind fun w => if c.isHooked then some w.id else none

/-- Whether nothing is under way: the session is active with a workbook that is bound to it, or idle
without one. -/
structure IsStable (c : Course) : Prop extends c.IsBound where
  phase : c.phase = if c.active.isSome then .active else .idle

theorem IsStable.phase_eq {c : Course} (h : c.IsStable) : c.phase = .idle ∨ c.phase = .active := by
  rw [h.phase]
  split
  · exact .inr rfl
  · exact .inl rfl

end Course

/-- A session between requests. -/
structure Session.AtRest (s : Session) : Prop where
  wired : s.Wired
  stable : s.course.IsStable
  isBusy : s.isBusy = false

namespace Session.AtRest

theorem apply (h : s.AtRest) (e : Event) : (e.apply s).AtRest where
  wired := h.wired.apply e
  stable := by
    rw [course_apply]
    exact h.stable
  isBusy := (congrArg Course.isBusy (course_apply s e)).trans h.isBusy

/-- Without a workbook nothing is handed on. -/
theorem sync_eq_none (h : s.AtRest) (hactive : s.active = none) : s.sync = none := by
  have hsync : s.sync.isSome = s.active.isSome := h.stable.sync
  rw [hactive] at hsync
  exact Option.not_isSome_iff_eq_none.mp (by rw [hsync]; exact Bool.false_ne_true)

/-- With a workbook the session is active. -/
theorem phase_eq_active (h : s.AtRest) {w : ActiveWorkbook} (hactive : s.active = some w) :
    s.phase = .active := by
  have hphase : s.phase = if s.active.isSome then .active else .idle := h.stable.phase
  rw [hphase, hactive]
  rfl

theorem withPrompts (h : s.AtRest) (prompts : Prompts) : ({ s with prompts } : Session).AtRest :=
  ⟨h.wired.congr rfl rfl rfl, h.stable, h.isBusy⟩

end Session.AtRest

/-- An accepted configuration has chunks with cells. -/
theorem Config.chunk_pos {c : Config} (h : c.validated = .ok c) :
    1 ≤ c.chunkRows ∧ 1 ≤ c.chunkCols := by
  unfold Config.validated Config.fault? at h
  split at h
  · cases h
  · next hfault =>
    split at hfault
    · cases hfault
    · omega

namespace Session.IsNew

theorem validated (h : s.IsNew) : s.config.validated = .ok s.config := by
  obtain ⟨base, hbase, -⟩ := h
  unfold Session.create Config.validated at hbase
  unfold Config.validated
  cases hf : s.config.fault? with
  | none => rfl
  | some fault =>
    rw [hf] at hbase
    cases hbase

theorem eq (h : s.IsNew) :
    s = { ({ store := s.store, config := s.config, maxWriteArea := s.config.maxWriteArea } :
        Session) with
      prompts := s.prompts, hook := s.hook, services := s.services, tokens := s.tokens,
      collaboration := s.collaboration, refresh := s.refresh, caches := s.caches } := by
  have hvalidated := h.validated
  obtain ⟨base, hbase, heq⟩ := h
  rw [Session.create, hvalidated] at hbase
  cases hbase
  exact heq

theorem wired (h : s.IsNew) : s.Wired := by
  rw [h.eq]
  refine ⟨⟨List.nodup_nil, ?_, ?_⟩, rfl, ?_, fun _ => rfl⟩
  · intro e he
    cases he
  · intro label id hid
    cases hid
  · intro e he
    cases he

theorem atRest (h : s.IsNew) : s.AtRest := by
  refine ⟨h.wired, ?_, ?_⟩
  · rw [h.eq]
    exact ⟨⟨rfl, rfl⟩, rfl⟩
  · rw [h.eq]

end Session.IsNew

end SheetSync
