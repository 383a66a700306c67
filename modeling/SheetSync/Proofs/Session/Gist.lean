import SheetSync.Proofs.Files
import SheetSync.Proofs.Session.Swap
/-!
Sessions that come to the same. What waits in the queue of a session will be carried out, so what
counts is the workbook that the store has then; which session tokens were given out, when files
changed and how often the session gives way does not count either: `Gist`. A write that is carried
out leaves the gist as it is, and everything that others do changes it in a way that depends on
nothing but the gist. Main statements: `Alike.paced` and `Alike.apply`, by which sessions of one
gist stay so whenever their writes are carried out.
-/
namespace SheetSync

/-- What a session comes to once everything that waits is carried out, but for session tokens, times
of files, and what is kept beside the document. -/
structure Gist where
  workbook : Option Workbook
  files : FileTree
  document : Document
  maxWriteArea : Nat
  config : Config
  phase : Phase
  active : Option Descriptor
  sync : Option Nat
  /-- Whether the workbook that the hook is installed for is the active one. -/
  hookFor : Option Bool
  isBusy : Bool
  prompts : Prompts
  hook : Option (Option DocumentAction)
  collaboration : Bool

/-- What becomes of the store's workbook when all that waits is carried out. -/
def Link.outcome (l : Link) : Option Workbook :=
  l.store.workbook.map fun b => l.pending.foldl Workbook.after b

namespace Session

def gist (s : Session) : Gist where
  workbook := s.toLink.outcome
  files := s.store.files.untimed
  document := s.document
  maxWriteArea := s.maxWriteArea
  config := { s.config with ticks := 0 }
  phase := s.phase
  active := s.active.map (·.descriptor)
  sync := s.sync
  hookFor := s.hookFor.map fun id => s.active.any fun w => w.id == id
  isBusy := s.isBusy
  prompts := s.prompts
  hook := s.hook.map (·.action)
  collaboration := s.collaboration

end Session

/-! ## Writes that are carried out -/

/-- A local store that is not watched gives a write to its workbook, if it has one. -/
theorem Store.perform_apply_of_local {s : Store} (hkind : s.kind = .local) (hwatch : s.watch = none)
    (w : Write) :
    ((Store.apply w).perform s).2 = { s with workbook := s.workbook.map (·.after w) } := by
  cases hbook : s.workbook with
  | some b => rw [Holds.perform_apply ⟨hkind, hwatch, hbook⟩, Option.map_some]
  | none =>
    -- a write makes no workbook where there is none
    obtain ⟨workbook, heq⟩ := exists_perform_apply_eq w s
    have hnone : workbook.map Workbook.descriptor = none := by
      have hsame := descriptor_perform_apply w s
      rwa [heq, hbook] at hsame
    rw [heq, logged_of_watch_eq_none _ hwatch, Option.map_eq_none_iff.mp hnone, Option.map_none]

namespace Link

variable {l : Link}

theorem store_carry_of_local (hkind : l.store.kind = .local) (hwatch : l.store.watch = none) :
    l.carry.store = { l.store with
      workbook := l.pending.head?.elim l.store.workbook fun w =>
        l.store.workbook.map (·.after w) } := by
  rw [store_carry]
  cases l.pending.head? with
  | none => rfl
  | some w => exact Store.perform_apply_of_local hkind hwatch w

/-- What is carried out first counts the same. -/
theorem outcome_carry (hkind : l.store.kind = .local) (hwatch : l.store.watch = none)
    (hplain : l.queue.IsPlain) : l.carry.outcome = l.outcome := by
  rw [outcome, store_carry_of_local hkind hwatch, pending_carry hplain, outcome]
  cases l.pending with
  | nil => rfl
  | cons w ws =>
    simp only [List.head?_cons, Option.elim_some, List.tail_cons, List.foldl_cons, Option.map_map]
    rfl

theorem outcome_of_idle (hwaiting : l.queue.waiting = []) : l.outcome = l.store.workbook := by
  rw [outcome, pending, Queue.actions_eq_nil.mpr hwaiting]
  exact Option.map_id'

/-- An action on the document counts with the writes that it calls for. -/
theorem outcome_perform (l : Link) (a : DocumentAction) : (l.perform a).outcome =
    l.outcome.map fun b => (l.planned a).foldl Workbook.after b := by
  rw [outcome, store_perform, pending_perform, outcome, Option.map_map]
  simp only [Function.comp_def, List.foldl_append]

end Link

namespace Session

variable {s t u v : Session} {x : Option Nat}

/-- A session that is wired to a local store that is not watched. -/
structure Local (s : Session) : Prop where
  wired : s.Wired
  kind : s.store.kind = .local
  watch : s.store.watch = none

namespace Local

theorem congr (h : s.Local) (hlink : t.toLink = s.toLink) (hsync : t.sync = s.sync) : t.Local where
  wired := h.wired.congr (by rw [hlink]) (by rw [hlink]) hsync
  kind := by
    rw [hlink]
    exact h.kind
  watch := by
    rw [hlink]
    exact h.watch

theorem carry (h : s.Local) : (Event.carry.apply s).Local where
  wired := h.wired.apply_carry
  kind := (kind_apply s .carry).trans h.kind
  watch := watch_apply_eq_none h.watch .carry

theorem act (h : s.Local) (a : DocumentAction) : ((Event.act a).apply s).Local where
  wired := h.wired.apply_act a
  kind := (kind_apply s (.act a)).trans h.kind
  watch := watch_apply_eq_none h.watch (.act a)

end Local

theorem gist_carry (h : s.Local) : (Event.carry.apply s).gist = s.gist := by
  have houtcome := Link.outcome_carry h.kind h.watch h.wired.plain
  have hstore := Link.store_carry_of_local h.kind h.watch
  show ({ s.gist with
    workbook := s.toLink.carry.outcome, files := s.toLink.carry.store.files.untimed } : Gist) = _
  rw [houtcome, hstore]
  rfl

theorem gist_act (s : Session) (a : DocumentAction) : ((Event.act a).apply s).gist =
    { s.gist with
      document := (s.gist.document.perform a).1
      workbook := s.gist.workbook.map fun b => ((s.gist.document.perform a).2.flatMap
        (Link.called s.gist.maxWriteArea)).foldl Workbook.after b } := by
  show ({ s.gist with
    workbook := (s.toLink.perform a).outcome, document := (s.toLink.perform a).document
    files := (s.toLink.perform a).store.files.untimed
    maxWriteArea := (s.toLink.perform a).maxWriteArea } : Gist) = _
  rw [Link.outcome_perform, Link.store_perform, Link.perform_eq]
  rfl

/-! ## What happens around two sessions -/

/-- The session after some of the writes that wait. -/
def carried (n : Nat) (s : Session) : Session := { s with toLink := Link.carry^[n] s.toLink }

theorem carried_succ (n : Nat) (s : Session) :
    carried (n + 1) s = Event.carry.apply (carried n s) := by
  rw [carried, Function.iterate_succ_apply']
  rfl

theorem carried_keeps (h : s.Local) (n : Nat) :
    (carried n s).Local ∧ (carried n s).gist = s.gist := by
  induction n with
  | zero => exact ⟨h, rfl⟩
  | succ n ih =>
    rw [carried_succ]
    exact ⟨ih.1.carry, (gist_carry ih.1).trans ih.2⟩

/-- Whether a pause leaves a session with some of the writes carried out that waited, with all of
them if the session waits for its queue. What its hook does is done in between. -/
def Carries : Pause → Session → Session → Prop
  | .queue, s, t => t.isIdle ∧ ∃ n, t = carried n s
  | .hook, s, t => ∃ i j, t = carried j (carried i s).act
  | _, s, t => ∃ n, t = carried n s

/-- What happens at a pause around a session that nobody else acts on: what happens while it runs
alone, or any number of the writes that wait are carried out. -/
def Paced (k : Pause) (s : Session) (_ : Unit) (t : Session) (_ : Unit) : Prop :=
  t = attend k s ∨ Carries k s t

/-- What happens while a session runs alone is that some of its writes are carried out. -/
theorem carries_attend (h : s.Wired) (k : Pause) : Carries k s (attend k s) := by
  have hdrain : ∃ n, ({ s with toLink := s.toLink.drain } : Session) = carried n s := by
    obtain ⟨n, hn⟩ := s.toLink.exists_drain_eq
    exact ⟨n, by rw [hn]; rfl⟩
  cases k with
  | turn =>
    obtain ⟨n, hn⟩ := Link.exists_turn_eq h.plain
    exact ⟨n, by rw [carried, ← hn]; rfl⟩
  | queue => exact ⟨Queue.isIdle_iff.mpr (Link.drain_waiting h.plain), hdrain⟩
  | hook => exact ⟨0, 0, rfl⟩
  | read => exact hdrain
  | write => exact hdrain
  | clock => exact hdrain

theorem Local.carries (h : s.Local) {k : Pause} (hk : Paced k s () t ()) : Carries k s t := by
  rcases hk with rfl | hk
  · exact carries_attend h.wired k
  · exact hk

/-- Two sessions of one gist, with a listener that both keep. -/
structure Alike (x : Option Nat) (s t : Session) : Prop where
  left : s.Local
  right : t.Local
  gist : s.gist = t.gist
  sync : s.sync = x

namespace Alike

theorem symm (h : Alike x s t) : Alike x t s :=
  ⟨h.right, h.left, h.gist.symm, (congrArg Gist.sync h.gist).symm.trans h.sync⟩

theorem document (h : Alike x s t) : s.document = t.document := congrArg Gist.document h.gist

theorem phase (h : Alike x s t) : s.phase = t.phase := congrArg Gist.phase h.gist

/-- A step that leaves the links and listeners as they are. -/
theorem congr (h : Alike x s t) (hs : u.toLink = s.toLink ∧ u.sync = s.sync)
    (ht : v.toLink = t.toLink ∧ v.sync = t.sync) (hgist : u.gist = v.gist) : Alike x u v :=
  ⟨h.left.congr hs.1 hs.2, h.right.congr ht.1 ht.2, hgist, hs.2.trans h.sync⟩

theorem carried (h : Alike x s t) (i j : Nat) : Alike x (s.carried i) (t.carried j) := by
  obtain ⟨hleft, hs⟩ := carried_keeps h.left i
  obtain ⟨hright, ht⟩ := carried_keeps h.right j
  exact ⟨hleft, hright, hs.trans (h.gist.trans ht.symm), h.sync⟩

theorem perform (h : Alike x s t) (a : DocumentAction) :
    Alike x ((Event.act a).apply s) ((Event.act a).apply t) := by
  refine ⟨h.left.act a, h.right.act a, ?_, h.sync⟩
  rw [gist_act, gist_act, h.gist]

theorem hooked (h : Alike x s t) : Alike x s.act t.act := by
  have hjoin : ∀ s : Session, s.hook.bind (·.action) = s.gist.hook.join := by
    intro s
    rw [Session.gist]
    cases s.hook <;> rfl
  have haction : s.hook.bind (·.action) = t.hook.bind (·.action) := by
    rw [hjoin, hjoin, h.gist]
  unfold Session.act
  rw [haction]
  cases t.hook.bind (·.action) with
  | none => exact h
  | some a => exact h.perform a

/-- Whatever is carried out at a pause of each. -/
theorem paced (h : Alike x s t) {k : Pause} (hs : Paced k s () u ()) (ht : Paced k t () v ()) :
    Alike x u v := by
  have hs := h.left.carries hs
  have ht := h.right.carries ht
  cases k with
  | hook =>
    obtain ⟨i, j, rfl⟩ := hs
    obtain ⟨i', j', rfl⟩ := ht
    exact ((h.carried i i').hooked).carried j j'
  | queue =>
    obtain ⟨-, i, rfl⟩ := hs
    obtain ⟨-, i', rfl⟩ := ht
    exact h.carried i i'
  | _ =>
    obtain ⟨i, rfl⟩ := hs
    obtain ⟨i', rfl⟩ := ht
    exact h.carried i i'

/-- Without a listener nothing waits. -/
theorem waiting (h : Alike none s t) : s.queue.waiting = [] ∧ t.queue.waiting = [] :=
  ⟨h.left.wired.idle h.sync, h.right.wired.idle h.symm.sync⟩

end Alike

/-- What others do that is not for the queue or the store. -/
def IsAside : Event → Prop
  | .carry => False
  | .store _ _ _ => False
  | _ => True

theorem Alike.apply (h : Alike x s t) {e : Event} (he : IsAside e) :
    Alike x (e.apply s) (e.apply t) := by
  have hgist := h.gist
  cases e with
  | act a => exact h.perform a
  | watch label unsubscribes answer =>
    refine ⟨⟨h.left.wired.apply _, h.left.kind, h.left.watch⟩,
      ⟨h.right.wired.apply _, h.right.kind, h.right.watch⟩, ?_, h.sync⟩
    exact congrArg (fun g : Gist => { g with document := g.document.watch label unsubscribes answer })
      hgist
  | unwatch label =>
    refine ⟨⟨h.left.wired.apply _, h.left.kind, h.left.watch⟩,
      ⟨h.right.wired.apply _, h.right.kind, h.right.watch⟩, ?_, h.sync⟩
    exact congrArg (fun g : Gist => { g with document := g.document.unsubscribeLabel label }) hgist
  | collaboration isOn =>
    exact h.congr ⟨rfl, rfl⟩ ⟨rfl, rfl⟩
      (congrArg (fun g : Gist => { g with collaboration := isOn }) hgist)
  | prompts p =>
    exact h.congr ⟨rfl, rfl⟩ ⟨rfl, rfl⟩ (congrArg (fun g : Gist => { g with prompts := p }) hgist)
  | hook action fails =>
    refine h.congr ⟨rfl, rfl⟩ ⟨rfl, rfl⟩ ?_
    have hset : ∀ s : Session, ((Event.hook action fails).apply s).gist =
        { s.gist with hook := s.gist.hook.map fun _ => action } := by
      intro s
      simp only [Event.apply, Session.gist, Option.map_map, Function.comp_def]
    rw [hset, hset, hgist]
  | refresh book => exact h.congr ⟨rfl, rfl⟩ ⟨rfl, rfl⟩ hgist
  | caches c => exact h.congr ⟨rfl, rfl⟩ ⟨rfl, rfl⟩ hgist
  | carry => exact he.elim
  | store => exact he.elim

end Session

end SheetSync
