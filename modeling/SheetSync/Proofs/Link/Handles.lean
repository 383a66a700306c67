import SheetSync.Proofs.Document.Order
/-!
Handles that hand on what is changed in a document. Each handle has a listener of its own, and all
of them enqueue into one queue. Which handles are attached is a matter of what was started and
stopped, so what is enqueued can be read off the steps alone: a change that is not loaded is planned
once for each handle that is attached then, and what is enqueued is carried out in that order,
whether its handle is still attached or not.

Main statement: `Link.Handled.handed_on_once`.
-/
namespace SheetSync.Link

/-- The store after a write was carried out, or refused. -/
def carried (s : Store) (w : Write) : Store := (runWrite w s).2

/-! ## What is carried out -/

/-- Of what was sent to a queue, some is carried out and the rest waits, in its order. -/
structure Ledger (l : Link) (store : Store) (sent : List Write) : Prop where
  plain : l.queue.IsPlain
  tail : l.queue.tail = sent.length
  done : ∃ done, sent = done ++ l.pending ∧ l.store = done.foldl carried store

namespace Ledger

variable {l : Link} {store : Store} {sent : List Write}

/-- Who is subscribed does not matter. -/
theorem congr (h : l.Ledger store sent) {k : Link} (hqueue : k.queue = l.queue)
    (hstore : k.store = l.store) : k.Ledger store sent := by
  obtain ⟨hplain, htail, hdone⟩ := h
  rw [← hqueue] at hplain htail
  rw [← hstore, pending, ← hqueue] at hdone
  exact ⟨hplain, htail, hdone⟩

theorem carry (h : l.Ledger store sent) : l.carry.Ledger store sent := by
  obtain ⟨done, hsent, hstore⟩ := h.done
  have hpending := pending_carry h.plain
  have hstate : l.carry.store = l.pending.head?.elim l.store fun w => carried l.store w :=
    store_carry l
  refine ⟨h.plain.runOne _ _, (h.plain.runOne_tail _ _).trans h.tail, ?_⟩
  cases hwaiting : l.pending with
  | nil =>
    rw [hwaiting] at hpending hstate hsent
    exact ⟨done, by rw [hpending, hsent]; rfl, hstate.trans hstore⟩
  | cons w ws =>
    rw [hwaiting] at hpending hstate hsent
    refine ⟨done ++ [w], ?_, ?_⟩
    · rw [hpending, hsent]
      simp
    · rw [List.foldl_append, ← hstore]
      exact hstate

theorem iterate_carry (h : l.Ledger store sent) (n : Nat) :
    (Link.carry^[n] l).Ledger store sent := by
  induction n with
  | zero => exact h
  | succ n ih =>
    rw [Function.iterate_succ_apply']
    exact ih.carry

theorem turn (h : l.Ledger store sent) : l.turn.Ledger store sent := by
  obtain ⟨n, hn⟩ := exists_turn_eq h.plain
  rw [hn]
  exact h.iterate_carry n

theorem drain (h : l.Ledger store sent) : l.drain.Ledger store sent := by
  obtain ⟨n, hn⟩ := l.exists_drain_eq
  rw [hn]
  exact h.iterate_carry n

theorem perform (h : l.Ledger store sent) (a : DocumentAction) :
    (l.perform a).Ledger store (sent ++ l.planned a) := by
  obtain ⟨done, hsent, hstore⟩ := h.done
  refine ⟨?_, ?_, done, ?_, ?_⟩
  · rw [perform_eq]
    exact h.plain.enqueueAll _
  · rw [perform_eq, List.length_append, ← h.tail]
    simp [Queue.enqueueAll_eq]
  · rw [pending_perform, hsent, List.append_assoc]
  · rw [store_perform]
    exact hstore

end Ledger

/-! ## Handles -/

/-- A link and the handles that were started on it, in the order of their start. -/
structure Handled where
  link : Link
  handles : List SyncHandle := []

namespace Handled

/-- What is done with a link and its handles, one step after the other. A step that tells of a
change tells everyone of it before the next step begins: a handle is not stopped while a change is
being told, as a listener with a hold of it could. -/
inductive Step where
  | act (a : DocumentAction)
  /-- Subscribes a watcher that answers nothing. -/
  | watch (label : String) (unsubscribes : Option String)
  | unwatch (label : String)
  | start
  /-- Stops a handle, or drops it. Handles are counted from zero as they are started. -/
  | stop (k : Nat)
  | turn
  | drain
deriving DecidableEq

def step (s : Handled) : Step → Handled
  | .act a => { s with link := s.link.perform a }
  | .watch label unsubscribes =>
    { s with link := { s.link with document := s.link.document.watch label unsubscribes none } }
  | .unwatch label =>
    { s with link := { s.link with document := s.link.document.unsubscribeLabel (some label) } }
  | .start => ⟨(SyncHandle.start s.link).2, s.handles ++ [(SyncHandle.start s.link).1]⟩
  | .stop k =>
    match s.handles[k]? with
    | some h => ⟨(h.stop s.link).2, s.handles.set k (h.stop s.link).1⟩
    | none => s
  | .turn => { s with link := s.link.turn }
  | .drain => { s with link := s.link.drain }

/-- A store with a new document, after some steps. -/
def run (store : Store) (maxArea : Nat) (steps : List Step) : Handled :=
  steps.foldl step { link := { store, maxWriteArea := maxArea } }

/-- The handles that are attached, in the order of their start. -/
def attached (s : Handled) : List Nat := s.handles.findIdxs (·.isActive)

/-- What is enqueued at a step, and for which handle. -/
def enqueues (s : Handled) : Step → List (Nat × Write)
  | .act a =>
    match (s.link.document.change a).2 with
    | some e =>
      if e.source = .load then []
      else s.attached.flatMap fun k =>
        (Plan.writes s.link.maxWriteArea e.deltas).map fun w => (k, w)
    | none => []
  | _ => []

/-- What is enqueued in some steps, one after the other. -/
def enqueuesAll (s : Handled) : List Step → List (Nat × Write)
  | [] => []
  | st :: steps => s.enqueues st ++ (s.step st).enqueuesAll steps

/-- Whether a handle was started and not stopped since. -/
def IsAttached (steps : List Step) (k : Nat) : Prop :=
  ∃ earlier later, steps = earlier ++ .start :: later ∧ earlier.count .start = k ∧
    .stop k ∉ later

/-! ## Which handles are attached -/

section Attached

variable {s : Handled} {k : Nat}

theorem isAttached_concat (steps : List Step) (st : Step) (k : Nat) :
    IsAttached (steps ++ [st]) k ↔
      (st = .start ∧ k = steps.count .start) ∨ (IsAttached steps k ∧ st ≠ .stop k) := by
  constructor
  · intro ⟨earlier, later, heq, hcount, hstop⟩
    cases later using List.reverseRecOn with
    | nil =>
      obtain ⟨rfl, hst⟩ := List.append_inj' heq rfl
      left
      exact ⟨List.singleton_inj.mp hst, hcount.symm⟩
    | append_singleton later st' =>
      have heq' : steps ++ [st] = (earlier ++ .start :: later) ++ [st'] := by simp [heq]
      obtain ⟨hsteps, hst⟩ := List.append_inj' heq' rfl
      obtain rfl := List.singleton_inj.mp hst
      right
      refine ⟨⟨earlier, later, hsteps, hcount, ?_⟩, ?_⟩
      · intro hmem
        exact hstop (List.mem_append_left _ hmem)
      · intro h
        exact hstop (by simp [h])
  · rintro (⟨rfl, rfl⟩ | ⟨⟨earlier, later, rfl, hcount, hstop⟩, hne⟩)
    · exact ⟨steps, [], rfl, rfl, by simp⟩
    · refine ⟨earlier, later ++ [st], by simp, hcount, ?_⟩
      simp [hstop, Ne.symm hne]

theorem mem_attached : k ∈ s.attached ↔ ∃ h, s.handles[k]? = some h ∧ h.isActive := by
  rw [attached, List.mem_findIdxs_iff_exists_getElem_pos]
  constructor
  · intro ⟨hk, hactive⟩
    exact ⟨_, List.getElem?_eq_getElem hk, hactive⟩
  · intro ⟨h, hget, hactive⟩
    obtain ⟨hk, rfl⟩ := List.getElem?_eq_some_iff.mp hget
    exact ⟨hk, hactive⟩

theorem isActive_stop (h : SyncHandle) (l : Link) : (h.stop l).1.isActive = false := by
  obtain ⟨_ | id⟩ := h <;> rfl

/-- A start attaches the next handle, and a stop detaches its own; nothing else matters. -/
theorem mem_attached_step (s : Handled) (st : Step) (k : Nat) :
    k ∈ (s.step st).attached ↔
      (st = .start ∧ k = s.handles.length) ∨ (k ∈ s.attached ∧ st ≠ .stop k) := by
  rw [mem_attached]
  cases st with
  | start =>
    have hnew : (SyncHandle.start s.link).1.isActive = true := rfl
    simp only [step, mem_attached, List.getElem?_append]
    by_cases hk : k < s.handles.length
    · simp [hk, Nat.ne_of_lt hk]
    · by_cases heq : k = s.handles.length
      · simp [heq, hnew]
      · have hgt : k - s.handles.length ≠ 0 := by omega
        simp [hk, heq, hgt]
  | stop j =>
    simp only [step]
    split
    · next h hj =>
      simp only [mem_attached, List.getElem?_set]
      by_cases hkj : j = k
      · subst hkj
        have hoff := isActive_stop h s.link
        simp [(List.getElem?_eq_some_iff.mp hj).1, hoff]
      · simp [hkj]
    · next hj =>
      rw [← mem_attached]
      by_cases hkj : j = k
      · subst hkj
        simp [mem_attached, hj]
      · simp [hkj]
  | act | watch | unwatch | turn | drain => simp [step, mem_attached]

/-- Stopping a handle that is not attached does nothing. -/
theorem step_stop_of_not_mem {k : Nat} (hk : k ∉ s.attached) : s.step (.stop k) = s := by
  simp only [step]
  split
  · next handle hget =>
    obtain ⟨_ | id⟩ := handle
    · obtain ⟨hlt, heq⟩ := List.getElem?_eq_some_iff.mp hget
      show (⟨s.link, s.handles.set k ⟨none⟩⟩ : Handled) = s
      rw [← heq, List.set_getElem_self]
    · exact absurd (mem_attached.mpr ⟨_, hget, rfl⟩) hk
  · rfl

theorem length_handles_step (s : Handled) (st : Step) :
    (s.step st).handles.length = s.handles.length + [st].count .start := by
  cases st with
  | start => simp [step]
  | stop j =>
    simp only [step]
    split
    · simp
    · simp
  | act | watch | unwatch | turn | drain => simp [step]

theorem run_concat (store : Store) (maxArea : Nat) (steps : List Step) (st : Step) :
    run store maxArea (steps ++ [st]) = (run store maxArea steps).step st := by
  simp [run]

theorem length_handles_run (store : Store) (maxArea : Nat) (steps : List Step) :
    (run store maxArea steps).handles.length = steps.count .start := by
  induction steps using List.reverseRecOn with
  | nil => rfl
  | append_singleton steps st ih => rw [run_concat, length_handles_step, ih, List.count_append]

theorem mem_attached_run (store : Store) (maxArea : Nat) (steps : List Step) (k : Nat) :
    k ∈ (run store maxArea steps).attached ↔ IsAttached steps k := by
  induction steps using List.reverseRecOn with
  | nil => simp [run, attached, IsAttached]
  | append_singleton steps st ih =>
    rw [run_concat, mem_attached_step, isAttached_concat, length_handles_run, ih]

theorem mem_attached_of_enqueues {st : Step} {x : Nat × Write}
    (hx : x ∈ s.enqueues st) : x.1 ∈ s.attached := by
  cases st with
  | act a =>
    simp only [enqueues] at hx
    cases hevent : (s.link.document.change a).2 with
    | none => simp [hevent] at hx
    | some e =>
      by_cases he : e.source = .load
      · simp [hevent, he] at hx
      · simp only [hevent, he, if_false, List.mem_flatMap, List.mem_map] at hx
        obtain ⟨k, hk, w, -, rfl⟩ := hx
        exact hk
  | start | stop | watch | unwatch | turn | drain => cases hx

end Attached

/-! ## Handles and their listeners -/

/-- The listeners of the handles that are attached, in the order of their start. -/
def listeners (s : Handled) : List Nat := s.handles.filterMap (·.listener)

theorem length_listeners (s : Handled) : s.listeners.length = s.attached.length := by
  rw [listeners, attached, List.length_filterMap_eq_countP, List.length_findIdxs]
  rfl

/-- The listener of a handle among those of all the handles that are attached. -/
theorem exists_listeners_eq {s : Handled} {k id : Nat} (hk : s.handles[k]? = some ⟨some id⟩) :
    ∃ before after, s.listeners = before ++ id :: after ∧
      (s.handles.set k ⟨none⟩).filterMap (·.listener) = before ++ after := by
  obtain ⟨hlt, hget⟩ := List.getElem?_eq_some_iff.mp hk
  refine ⟨(s.handles.take k).filterMap (·.listener), (s.handles.drop (k + 1)).filterMap (·.listener),
    ?_, ?_⟩
  · have hsplit : s.handles = s.handles.take k ++ ⟨some id⟩ :: s.handles.drop (k + 1) := by
      rw [← hget, ← List.drop_eq_getElem_cons hlt, List.take_append_drop]
    conv_lhs => rw [listeners, hsplit]
    rw [List.filterMap_append, List.filterMap_cons]
  · rw [List.set_eq_take_append_cons_drop, if_pos hlt, List.filterMap_append, List.filterMap_cons]

/-- No one answers, numbers are given out once, and those who hand changes on are the listeners of
the handles that are attached. -/
structure Sound (s : Handled) : Prop where
  document : s.link.document.WellFormed
  numbered : s.link.document.IsNumbered
  quiet : ∀ e ∈ s.link.document.listeners, e.2.IsQuiet
  forwards : s.link.document.forwards = s.listeners

/-- Without the only element that has a value, what stands before it and after it is left. -/
theorem filter_ne_of_nodup {α : Type} {f : α → Nat} {before after : List α} {x : α}
    (h : ((before ++ x :: after).map f).Nodup) :
    (before ++ x :: after).filter (f · ≠ f x) = before ++ after := by
  have hmiddle := (List.perm_middle.map f).nodup_iff.mp h
  obtain ⟨hx, -⟩ := List.nodup_cons.mp hmiddle
  have hne : ∀ y ∈ before ++ after, f y ≠ f x := by
    intro y hy heq
    exact hx (heq ▸ List.mem_map_of_mem hy)
  rw [List.filter_append, List.filter_cons_of_neg (by simp), ← List.filter_append,
    List.filter_eq_self]
  intro y hy
  simpa using hne y hy

namespace Sound

variable {s : Handled}

theorem nodup_listeners (h : s.Sound) : s.listeners.Nodup := by
  rw [← h.forwards]
  exact (List.filter_sublist.map Prod.fst).nodup h.numbered.nodup

theorem quiet_subscribe (h : s.Sound) {l : Listener} (hl : l.IsQuiet) :
    ∀ e ∈ (s.link.document.subscribe l).2.listeners, e.2.IsQuiet := by
  intro e he
  rcases List.mem_append.mp he with he | he
  · exact h.quiet e he
  · obtain rfl := List.mem_singleton.mp he
    exact hl

theorem start (h : s.Sound) : (s.step .start).Sound where
  document := h.document.subscribe
  numbered := h.numbered.subscribe _
  quiet := h.quiet_subscribe trivial
  forwards := by
    show (s.link.document.subscribe .forward).2.forwards = (s.handles ++ [_]).filterMap _
    rw [Document.forwards_subscribe, h.forwards, List.filterMap_append]
    rfl

/-- A handle that is stopped takes its own listener away, and no other. -/
theorem stop (h : s.Sound) (k : Nat) : (s.step (.stop k)).Sound := by
  by_cases hk : k ∈ s.attached
  · obtain ⟨handle, hget, hactive⟩ := mem_attached.mp hk
    obtain ⟨_ | id⟩ := handle
    · cases hactive
    obtain ⟨before, after, hlisteners, hset⟩ := exists_listeners_eq hget
    have hnodup := h.nodup_listeners
    rw [hlisteners] at hnodup
    simp only [Handled.step, hget]
    refine ⟨h.document.unsubscribe id, h.numbered.unsubscribe id, ?_, ?_⟩
    · intro e he
      exact h.quiet e (List.mem_of_mem_filter he)
    · show (s.link.document.unsubscribe id).forwards = (s.handles.set k ⟨none⟩).filterMap _
      rw [Document.forwards_unsubscribe, h.forwards, hset, hlisteners]
      exact filter_ne_of_nodup (f := fun id => id) (by simpa using hnodup)
  · rw [step_stop_of_not_mem hk]
    exact h

theorem step (h : s.Sound) (st : Step) : (s.step st).Sound := by
  cases st with
  | act a =>
    obtain ⟨hdocument, hforwards⟩ := h.document.perform a
    obtain ⟨-, hsub, -⟩ := Document.perform_quiet (a := a) fun _ _ _ => h.quiet
    simp only [Handled.step, perform_eq]
    refine ⟨hdocument, h.numbered.perform a, ?_, hforwards.trans h.forwards⟩
    intro e he
    exact h.quiet e (hsub e he)
  | watch label unsubscribes =>
    refine ⟨h.document.watch _ _ _, h.numbered.watch _ _ _, h.quiet_subscribe ?_, ?_⟩
    · rfl
    · exact (Document.forwards_watch _ _ _ _).trans h.forwards
  | unwatch label =>
    have hsub := s.link.document.sublist_listeners_unsubscribeLabel (some label)
    refine ⟨h.document.unsubscribeLabel _, h.numbered.unsubscribeLabel _, ?_, ?_⟩
    · intro e he
      exact h.quiet e (hsub.subset he)
    · exact (h.document.forwards_unsubscribeLabel _).trans h.forwards
  | start => exact h.start
  | stop k => exact h.stop k
  | turn => exact ⟨h.document, h.numbered, h.quiet, h.forwards⟩
  | drain => exact ⟨h.document, h.numbered, h.quiet, h.forwards⟩


/-! ## What is enqueued -/

theorem planned_eq (h : s.Sound) (a : DocumentAction) :
    s.link.planned a = (s.enqueues (.act a)).map Prod.snd := by
  rw [planned_quiet h.quiet, h.forwards, enqueues]
  cases (s.link.document.change a).2 with
  | none => rfl
  | some e =>
    rw [Option.map_some, Option.getD_some]
    by_cases he : e.source = .load
    · simp [he]
    · simp only [he, if_false, List.map_flatMap, List.map_map, Function.comp_def, List.map_id']
      -- the number of those who hand it on is all that matters
      rw [List.flatMap_def, List.flatMap_def, List.map_const', List.map_const', length_listeners]

/-- Every handle that is attached is told of a change once, in the order of their start. -/
theorem told_forwards (h : s.Sound) (a : DocumentAction) :
    (s.link.document.perform a).2.filter (·.listener = .forward) =
      ((s.link.document.change a).2.map fun e =>
        s.listeners.map fun id => ⟨id, .forward, e⟩).getD [] := by
  obtain ⟨-, -, htold⟩ := Document.perform_quiet (d := s.link.document) (a := a) fun _ _ _ => h.quiet
  rw [htold, ← h.forwards, Document.forwards]
  cases (s.link.document.change a).2 with
  | none => rfl
  | some e =>
    simp only [Option.map_some, Option.getD_some, List.filter_map, List.map_map]
    refine List.map_congr_left ?_
    intro l hl
    have hforward : l.2 = .forward := by simpa using (List.mem_filter.mp hl).2
    simp [hforward]

/-- A handle that is stopped takes its own listener away and leaves the rest of the link as it
is. -/
theorem step_stop (h : s.Sound) {k id : Nat} (hk : s.handles[k]? = some ⟨some id⟩) :
    ∃ before after, s.link.document.listeners = before ++ (id, .forward) :: after ∧
      s.step (.stop k) =
        ⟨{ s.link with document := { s.link.document with listeners := before ++ after } },
          s.handles.set k ⟨none⟩⟩ := by
  obtain ⟨before, after, hlisteners, -⟩ := exists_listeners_eq hk
  have hmem : (id, Listener.forward) ∈ s.link.document.listeners := by
    rw [← Document.mem_forwards, h.forwards, hlisteners]
    simp
  obtain ⟨before, after, heq⟩ := List.append_of_mem hmem
  have hnodup := h.numbered.nodup
  rw [heq] at hnodup
  have hleft := filter_ne_of_nodup hnodup
  refine ⟨before, after, heq, ?_⟩
  rw [← hleft, ← heq]
  simp only [Handled.step, hk]
  rfl

end Sound

/-! ## Runs -/

theorem enqueuesAll_concat (s : Handled) (steps : List Step) (st : Step) :
    s.enqueuesAll (steps ++ [st]) = s.enqueuesAll steps ++ (steps.foldl step s).enqueues st := by
  induction steps generalizing s with
  | nil => exact List.append_nil _
  | cons st' steps ih => rw [List.cons_append, enqueuesAll, ih, enqueuesAll, List.append_assoc]; rfl

theorem sound_run (store : Store) (maxArea : Nat) (steps : List Step) :
    (run store maxArea steps).Sound := by
  induction steps using List.reverseRecOn with
  | nil =>
    refine ⟨⟨List.nodup_nil, ?_, ?_⟩, Document.IsMade.empty.isNumbered, ?_, rfl⟩
    · intro e he
      cases he
    · intro label id hid
      cases hid
    · intro e he
      cases he
  | append_singleton steps st ih =>
    rw [run_concat]
    exact ih.step st

/-- Only the largest area that is given at first matters. -/
theorem maxWriteArea_step (s : Handled) (st : Step) :
    (s.step st).link.maxWriteArea = s.link.maxWriteArea := by
  cases st with
  | act a => simp [step, perform_eq]
  | stop k =>
    simp only [step]
    split
    · next h _ => obtain ⟨_ | id⟩ := h <;> rfl
    · rfl
  | start | watch | unwatch | turn | drain => rfl

theorem maxWriteArea_run (store : Store) (maxArea : Nat) (steps : List Step) :
    (run store maxArea steps).link.maxWriteArea = maxArea := by
  induction steps using List.reverseRecOn with
  | nil => rfl
  | append_singleton steps st ih => rw [run_concat, maxWriteArea_step, ih]

/-- What was sent to a queue after some steps. -/
def sent (store : Store) (maxArea : Nat) (steps : List Step) : List Write :=
  (enqueuesAll { link := { store, maxWriteArea := maxArea } } steps).map Prod.snd

/-- What a step sends to the queue is what it enqueues. -/
theorem Sound.ledger_step {s : Handled} {store : Store} {sent : List Write} (h : s.Sound)
    (hledger : s.link.Ledger store sent) (st : Step) :
    (s.step st).link.Ledger store (sent ++ (s.enqueues st).map Prod.snd) := by
  have hnothing : ∀ l : Link, l.Ledger store sent → l.Ledger store (sent ++ []) := by
    intro l hl
    rwa [List.append_nil]
  cases st with
  | act a =>
    rw [← h.planned_eq]
    exact hledger.perform a
  | turn => exact hnothing _ hledger.turn
  | drain => exact hnothing _ hledger.drain
  | stop k =>
    apply hnothing
    simp only [Handled.step]
    split
    · next handle _ => obtain ⟨_ | id⟩ := handle <;> exact hledger.congr rfl rfl
    · exact hledger
  | start | watch | unwatch => exact hnothing _ (hledger.congr rfl rfl)

theorem ledger_run (store : Store) (maxArea : Nat) (steps : List Step) :
    (run store maxArea steps).link.Ledger store (sent store maxArea steps) := by
  induction steps using List.reverseRecOn with
  | nil =>
    refine ⟨?_, rfl, [], rfl, rfl⟩
    intro e he
    cases he
  | append_singleton steps st ih =>
    rw [run_concat, sent, enqueuesAll_concat, List.map_append]
    exact (sound_run store maxArea steps).ledger_step ih st

/-- Whatever is changed, loaded, started, stopped and carried out, in whatever order, and whoever
else listens without an answer: a handle is attached from its start until it is stopped first. A
change is told once to each handle that is attached then, in the order of their start, and the
writes that are sent are those that are planned for it, once for each of these handles, unless it is
loaded. What is sent is carried out in its order, and the rest of it waits. A handle that is stopped
takes its own listener away and nothing that it has sent. -/
theorem handed_on_once (store : Store) (maxArea : Nat) (steps : List Step) :
    let s := run store maxArea steps
    let sent := sent store maxArea steps
    (∀ k, k ∈ s.attached ↔ IsAttached steps k) ∧ s.attached.Pairwise (· < ·) ∧
      (∀ st, ∀ x ∈ s.enqueues st, IsAttached steps x.1) ∧
      (∀ a, (s.link.document.perform a).2.filter (·.listener = .forward) =
        ((s.link.document.change a).2.map fun e =>
          s.listeners.map fun id => ⟨id, .forward, e⟩).getD []) ∧
      s.link.maxWriteArea = maxArea ∧ s.link.queue.tail = sent.length ∧
      (∃ done, sent = done ++ s.link.pending ∧ s.link.store = done.foldl carried store) ∧
      s.link.drain.pending = [] ∧ s.link.drain.store = sent.foldl carried store ∧
      (∀ k id, s.handles[k]? = some ⟨some id⟩ → ∃ before after,
        s.link.document.listeners = before ++ (id, .forward) :: after ∧
        s.step (.stop k) =
          ⟨{ s.link with document := { s.link.document with listeners := before ++ after } },
            s.handles.set k ⟨none⟩⟩) ∧
      ∀ k, k ∉ s.attached → s.step (.stop k) = s := by
  intro s sent
  have hsound : s.Sound := sound_run store maxArea steps
  have hledger : s.link.Ledger store sent := ledger_run store maxArea steps
  have hdrained : s.link.drain.pending = [] := by
    rw [pending, Queue.actions_eq_nil, drain_waiting hledger.plain]
  have hstore : s.link.drain.store = sent.foldl carried store := by
    obtain ⟨done, hsent, hstore⟩ := hledger.drain.done
    rw [hstore, hsent, hdrained, List.append_nil]
  refine ⟨mem_attached_run store maxArea steps, List.pairwise_findIdxs, ?_, hsound.told_forwards, ?_,
    hledger.tail, hledger.done, hdrained, hstore, ?_, ?_⟩
  · intro st x hx
    exact (mem_attached_run store maxArea steps x.1).mp (mem_attached_of_enqueues hx)
  · exact maxWriteArea_run store maxArea steps
  · intro k id hk
    exact hsound.step_stop hk
  · intro k hk
    exact step_stop_of_not_mem hk

/-- Two handles, the first of which is stopped twice between two edits; a copy is loaded last. -/
example : (enqueuesAll ⟨{}, []⟩ [.start, .start,
    .act (.edit .user "S" [(⟨0, 0⟩, .ofValue (.int 1))]), .stop 0, .stop 0,
    .act (.edit .external "S" [(⟨1, 0⟩, .ofValue (.int 2))]),
    .act (.load ⟨[]⟩)]).map Prod.fst = [0, 1, 1] := by
  decide +kernel

end Handled

end SheetSync.Link
