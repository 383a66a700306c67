import Mathlib.Data.List.Nodup
import SheetSync.Proofs.Queue.Stability
/-!
What the users of a queue get. Each operation comes to one result, its own, which is there for
whoever waits for it; and whether somebody does makes no difference to anything else.

Main statement: `operations_in_order`.
-/
namespace SheetSync

namespace Queue

variable {ι ε α σ : Type} {run : Runner ι ε α σ} {w : World ι ε α σ}

/-! ## One result for each operation -/

/-- The number of a stage's operation. -/
def Stage.seq : Stage → Nat
  | start seq => seq
  | finish seq => seq

theorem seq_le_of_mem_stagesUpTo {n : Nat} {g : Stage} (h : g ∈ stagesUpTo n) : g.seq ≤ n := by
  induction n with
  | zero => cases h
  | succ n ih =>
    rw [stagesUpTo, List.mem_append] at h
    rcases h with h | h
    · exact Nat.le_succ_of_le (ih h)
    · have hg : g = .start (n + 1) ∨ g = .finish (n + 1) := by simpa using h
      rcases hg with rfl | rfl <;> exact Nat.le_refl _

theorem nodup_stagesUpTo (n : Nat) : (stagesUpTo n).Nodup := by
  induction n with
  | zero => exact List.nodup_nil
  | succ n ih =>
    refine List.nodup_append.mpr ⟨ih, by simp, ?_⟩
    rintro g hg g' hg' rfl
    have hle := seq_le_of_mem_stagesUpTo hg
    have hg'' : g = .start (n + 1) ∨ g = .finish (n + 1) := by simpa using hg'
    have hseq : g.seq = n + 1 := by rcases hg'' with rfl | rfl <;> rfl
    omega

/-- A lookup in a list whose keys differ. -/
theorem lookup_eq_some_iff {β : Type} {l : List (Nat × β)} (h : (l.map Prod.fst).Nodup) {n : Nat}
    {b : β} : l.lookup n = some b ↔ (n, b) ∈ l := by
  induction l with
  | nil => simp
  | cons e l ih =>
    obtain ⟨m, c⟩ := e
    obtain ⟨hm, hl⟩ := List.nodup_cons.mp h
    rw [List.lookup_cons, List.mem_cons]
    by_cases hn : n = m
    · subst hn
      have hnot : (n, b) ∉ l := fun hb => hm (List.mem_map.mpr ⟨_, hb, rfl⟩)
      simp [hnot, eq_comm]
    · have hbeq : (n == m) = false := beq_false_of_ne hn
      simp [hbeq, hn, ih hl]

namespace Orderly

/-- No operation starts twice, and none finishes twice. -/
theorem nodup_stages (h : Orderly run w) : w.stages.Nodup := by
  rw [h.inTurn]
  split
  · refine List.nodup_append.mpr ⟨nodup_stagesUpTo _, List.nodup_singleton _, ?_⟩
    rintro g hg g' hg' rfl
    have hle := seq_le_of_mem_stagesUpTo hg
    have hseq : g.seq = w.queue.completed + 1 := by rw [List.mem_singleton.mp hg']; rfl
    omega
  · simpa using nodup_stagesUpTo _

theorem result?_eq_some_iff (h : Orderly run w) {seq : Nat} {r : Except (OpError ε) α} :
    w.queue.result? seq = some r ↔ ∃ s, (seq, s, r) ∈ w.outcomes := by
  have hkeys : (w.queue.results.map Prod.fst).Nodup := by
    rw [h.results, List.map_reverse, List.nodup_reverse, List.map_map]
    show (w.outcomes.map Prod.fst).Nodup
    rw [h.finished]
    exact List.nodup_range'
  rw [result?, lookup_eq_some_iff hkeys, h.results, List.mem_reverse, List.mem_map]
  constructor
  · rintro ⟨⟨seq', s, r'⟩, hmem, heq⟩
    obtain ⟨rfl, rfl⟩ := Prod.mk.inj heq
    exact ⟨s, hmem⟩
  · rintro ⟨s, hmem⟩
    exact ⟨_, hmem, rfl⟩

/-- An operation is known by its number. -/
theorem eq_of_mem_arrivals (h : Orderly run w) {seq : Nat} {t u : Operation ι}
    (ht : (seq, t) ∈ w.arrivals) (hu : (seq, u) ∈ w.arrivals) : t = u := by
  have hkeys : (w.arrivals.map Prod.fst).Nodup := by
    rw [h.numbered]
    exact List.nodup_range'
  have heq := ((lookup_eq_some_iff hkeys).mpr ht).symm.trans ((lookup_eq_some_iff hkeys).mpr hu)
  exact Option.some.inj heq

/-- The result of an operation is what that operation came to. -/
theorem result_own (h : Orderly run w) {seq : Nat} {t : Operation ι} {r : Except (OpError ε) α}
    (ht : (seq, t) ∈ w.arrivals) (hr : w.queue.result? seq = some r) :
    ∃ s, (seq, s, r) ∈ w.outcomes ∧ r = (run t.action s).1 := by
  obtain ⟨s, hs⟩ := h.result?_eq_some_iff.mp hr
  obtain ⟨u, hu, hown⟩ := h.own seq s r hs
  rw [h.eq_of_mem_arrivals ht hu]
  exact ⟨s, hs, hown⟩

/-- Turns that are many enough bring the result of any operation. -/
theorem exists_result (h : Orderly run w) {seq : Nat} {t : Operation ι}
    (ht : (seq, t) ∈ w.arrivals) :
    ∃ w', Moves run w w' ∧
      (w'.queue, w'.state) =
        w.queue.turnsUntil run (fun q => (q.result? seq).isSome) w.queue.effort w.state ∧
      ∃ s, (seq, s, (run t.action s).1) ∈ w'.outcomes ∧
        w'.queue.result? seq = some (run t.action s).1 := by
  obtain ⟨w', hm, hq, hs⟩ :=
    CanReach.turnsUntil run w (fun q => (q.result? seq).isSome) w.queue.effort
  have h' := h.moves hm
  have ht' : (seq, t) ∈ w'.arrivals :=
    (Moves.history_prefix hm).filterMap (·.arrival?) |>.subset ht
  have hsome : (w'.queue.result? seq).isSome := by
    rw [hq]
    rcases turnsUntil_ends run (fun q => (q.result? seq).isSome) w.queue.effort w.queue w.state
      w.queue.turnsLeft_le with hidle | hthere
    · -- nothing waits any more, so this operation has finished
      rw [← hq] at hidle ⊢
      obtain ⟨s, r, hr⟩ := (h'.stable (h'.tail_le_completed hidle)).finished seq t ht'
      rw [h'.result?_eq_some_iff.mpr ⟨s, hr⟩]
      rfl
    · exact hthere
  obtain ⟨r, hr⟩ := Option.isSome_iff_exists.mp hsome
  obtain ⟨s, hout, rfl⟩ := h'.result_own ht' hr
  exact ⟨w', hm, by rw [hq, hs], s, hout, hr⟩

end Orderly

/-- What the users of a queue can rely on. -/
structure Served (run : Runner ι ε α σ) (w : World ι ε α σ) : Prop where
  /-- No operation starts twice, and none finishes twice. -/
  once : w.stages.Nodup
  stats : w.queue.stats =
    ⟨w.arrivals.length, w.outcomes.length, w.outcomes.countP fun o => isFailure o.2.2⟩
  failed_le : w.queue.stats.failed ≤ w.queue.stats.completed
  completed_le : w.queue.stats.completed ≤ w.queue.stats.submitted
  /-- The results that are there are those of the operations that finished. -/
  results : ∀ seq r, w.queue.result? seq = some r ↔ ∃ s, (seq, s, r) ∈ w.outcomes
  own : ∀ seq t r, (seq, t) ∈ w.arrivals → w.queue.result? seq = some r →
    ∃ s, (seq, s, r) ∈ w.outcomes ∧ r = (run t.action s).1
  /-- Whoever waits for the result of an operation gets it. -/
  answered : ∀ seq t, (seq, t) ∈ w.arrivals → ∃ w', Moves run w w' ∧
    (w'.queue, w'.state) =
      w.queue.turnsUntil run (fun q => (q.result? seq).isSome) w.queue.effort w.state ∧
    ∃ s, (seq, s, (run t.action s).1) ∈ w'.outcomes ∧
      w'.queue.result? seq = some (run t.action s).1

theorem Orderly.served (h : Orderly run w) : Served run w where
  once := h.nodup_stages
  stats := by rw [Queue.stats, h.length_arrivals, h.length_outcomes, h.failed]
  failed_le := by
    show w.queue.failed ≤ w.queue.completed
    rw [h.failed, ← h.length_outcomes]
    exact List.countP_le_length
  completed_le := h.completed_le
  results _ _ := h.result?_eq_some_iff
  own _ _ _ := h.result_own
  answered _ _ := h.exists_result

end Queue

/-! ## Results of scripts -/

namespace Script

/-- What a script comes to. -/
def result (s : Script) : Except (OpError String) Value :=
  match s.ending with
  | .value v => .ok v
  | .failure text => .error (.failed text)
  | .panic message => .error (.panicked message)

theorem run_fst (s : Script) (log : Array String) : (run s log).1 = s.result := by
  unfold run result
  cases s.ending <;> rfl

end Script

namespace ScriptedQueue

/-- Whoever waits for a script gets what that script comes to. -/
theorem Shows.await? {q : ScriptedQueue} {u : World} (h : q.Shows u) {name : String} {seq : Nat}
    {t : Operation Script} (hname : q.awaited.lookup name = some seq)
    (ht : (seq, t) ∈ u.arrivals) : (q.await? name).map Prod.fst = some t.action.result := by
  obtain ⟨u₁, u₂, hm₁, hthere, hm₂, h₂⟩ :=
    h.reach (fun queue => (queue.result? seq).isSome) fun u' hm hidle => by
      have h' := h.orderly.moves hm
      obtain ⟨s, r, hr⟩ := (h'.stable (h'.tail_le_completed hidle)).finished seq t
        ((Queue.Moves.history_prefix hm).filterMap (·.arrival?) |>.subset ht)
      rw [h'.result?_eq_some_iff.mpr ⟨s, hr⟩]
      rfl
  have ho₁ := h.orderly.moves hm₁
  -- a result that is there stays there while the queue has another turn
  obtain ⟨r, hr⟩ := Option.isSome_iff_exists.mp hthere
  obtain ⟨s, hs⟩ := ho₁.result?_eq_some_iff.mp hr
  have hr₂ : u₂.queue.result? seq = some r := h₂.orderly.result?_eq_some_iff.mpr
    ⟨s, (Queue.Moves.history_prefix hm₂).filterMap (·.outcome?) |>.subset hs⟩
  have ht₂ : (seq, t) ∈ u₂.arrivals :=
    (Queue.Moves.history_prefix (hm₁.trans hm₂)).filterMap (·.arrival?) |>.subset ht
  obtain ⟨_, -, hown⟩ := h₂.orderly.result_own ht₂ hr₂
  rw [h₂.queue, hown, Script.run_fst] at hr₂
  simp [ScriptedQueue.await?, hname, hr₂]

/-- What a user asks of a queue. -/
inductive Request where
  | enqueue (t : Operation Script) (dropped : Bool)
  | drain
  | settle (ticks : Nat)
  | await (name : String)
  | stats
  | takeLog

inductive Answer where
  | number (n : Nat)
  | result (r : Option (Except (OpError String) Value))
  | stats (s : QueueStats)
  | log (lines : List String)

/-- What the queue answers, and what becomes of it. -/
def respond : Request → ScriptedQueue → Answer × ScriptedQueue
  | .enqueue t dropped, q => (q.enqueue t dropped).map .number id
  | .drain, q => (.number q.drain.queue.tail, q.drain)
  | .settle ticks, q => (.number (q.settle ticks).queue.tail, q.settle ticks)
  | .await name, q =>
    match q.await? name with
    | some (r, q) => (.result (some r), q)
    | none => (.result none, q)
  | .stats, q => (.stats q.queue.stats, q)
  | .takeLog, q => q.takeLog.map .log id

/-- The answers to requests that follow one another, and the queue that is left. -/
def respondAll : List Request → ScriptedQueue → List Answer × ScriptedQueue
  | [], q => ([], q)
  | r :: rs, q =>
    let (answer, q) := respond r q
    (respondAll rs q).map (answer :: ·) id

/-- Queues that differ at most in whether somebody waits for the result of the one name. -/
structure AgreeBut (name : String) (q q' : ScriptedQueue) : Prop where
  eq : q' = { q with awaited := q'.awaited }
  lookup : ∀ n, n ≠ name → q.awaited.lookup n = q'.awaited.lookup n

section Awaited

variable (q : ScriptedQueue) (awaited : List (String × Nat))

theorem giveWays_withAwaited (n : Nat) :
    giveWays n { q with awaited } = { giveWays n q with awaited } := by
  induction n generalizing q with
  | zero => rfl
  | succ n ih => exact ih q.giveWay

theorem reach_withAwaited (isThere : Queue.Of Script String Value → Bool) :
    reach { q with awaited } isThere = { reach q isThere with awaited } := by
  unfold reach
  split
  · split <;> rfl
  · rfl

theorem reachEnd_withAwaited (n : Nat) :
    reachEnd n { q with awaited } = { reachEnd n q with awaited } := by
  induction n generalizing q with
  | zero => rfl
  | succ n ih =>
    unfold reachEnd
    simp only [reach_withAwaited]
    split
    · rfl
    · exact ih _

theorem drain_withAwaited : drain { q with awaited } = { drain q with awaited } :=
  reachEnd_withAwaited q awaited _

theorem settle_withAwaited (ticks : Nat) :
    settle { q with awaited } ticks = { settle q ticks with awaited } := by
  unfold settle
  rw [giveWays_withAwaited, drain_withAwaited]

end Awaited

theorem lookup_filter_ne (name n : String) (l : List (String × Nat)) :
    (l.filter (·.1 ≠ name)).lookup n = if n = name then none else l.lookup n := by
  induction l with
  | nil => simp
  | cons e l ih =>
    obtain ⟨m, seq⟩ := e
    by_cases hm : m = name
    · subst hm
      rw [List.filter_cons_of_neg (by simp), ih]
      split
      · rfl
      · next hn => simp [List.lookup_cons, beq_false_of_ne hn]
    · rw [List.filter_cons_of_pos (by simpa using hm), List.lookup_cons, List.lookup_cons, ih]
      by_cases hn : n = m
      · subst hn
        simp [hm]
      · simp [beq_false_of_ne hn]

namespace AgreeBut

variable {name : String} {q q' : ScriptedQueue}

/-- What leaves the names alone leaves the queues in agreement. -/
theorem map (h : AgreeBut name q q') (f : ScriptedQueue → ScriptedQueue)
    (hf : ∀ (q : ScriptedQueue) awaited, f { q with awaited } = { f q with awaited }) :
    (f q').queue = (f q).queue ∧ AgreeBut name (f q) (f q') := by
  have hq : (f q).awaited = q.awaited :=
    (congrArg awaited (hf q q.awaited)).trans rfl
  have hq' : f q' = { f q with awaited := q'.awaited } := by
    rw [h.eq]
    exact hf q q'.awaited
  refine ⟨by rw [hq'], ?_, fun n hn => ?_⟩
  · rw [hq']
  · rw [hq', hq]
    exact h.lookup n hn

theorem enqueue (h : AgreeBut name q q') (t : Operation Script) (dropped : Bool) :
    (q.enqueue t dropped).1 = (q'.enqueue t dropped).1 ∧
      AgreeBut name (q.enqueue t dropped).2 (q'.enqueue t dropped).2 := by
  have hq : q'.queue = q.queue := by rw [h.eq]
  refine ⟨by simp [ScriptedQueue.enqueue, hq], ?_, fun n hn => ?_⟩
  · rw [h.eq]
    rfl
  · have hlookup := h.lookup n hn
    cases dropped with
    | true => exact hlookup
    | false => simp [ScriptedQueue.enqueue, List.lookup_cons, hq, hlookup]

theorem await? (h : AgreeBut name q q') {m : String} (hm : m ≠ name) :
    (respond (.await m) q).1 = (respond (.await m) q').1 ∧
      AgreeBut name (respond (.await m) q).2 (respond (.await m) q').2 := by
  simp only [respond, ScriptedQueue.await?]
  rw [← h.lookup m hm]
  cases q.awaited.lookup m with
  | none => exact ⟨rfl, h⟩
  | some seq =>
    obtain ⟨hqueue, hreach⟩ := h.map (·.reach fun queue => (queue.result? seq).isSome)
      fun q awaited => reach_withAwaited q awaited _
    simp only [Option.bind_eq_bind, Option.bind_some, Option.pure_def]
    refine ⟨by rw [hqueue], ?_, fun n hn => ?_⟩
    · rw [hreach.eq]
    · simp only [lookup_filter_ne, hreach.lookup n hn]

/-- A request for anything but the one result gets the same answer. -/
theorem respond (h : AgreeBut name q q') {r : Request} (hr : r ≠ .await name) :
    (respond r q).1 = (respond r q').1 ∧ AgreeBut name (respond r q).2 (respond r q').2 := by
  have hq : q'.queue = q.queue := by rw [h.eq]
  have hlog : q'.log = q.log := by rw [h.eq]
  cases r with
  | enqueue t dropped =>
    obtain ⟨hnumber, hagree⟩ := h.enqueue t dropped
    exact ⟨congrArg Answer.number hnumber, hagree⟩
  | drain =>
    obtain ⟨hqueue, hagree⟩ := h.map drain drain_withAwaited
    exact ⟨by simp only [ScriptedQueue.respond, hqueue], hagree⟩
  | settle ticks =>
    obtain ⟨hqueue, hagree⟩ := h.map (·.settle ticks) fun q awaited =>
      settle_withAwaited q awaited ticks
    exact ⟨by simp only [ScriptedQueue.respond, hqueue], hagree⟩
  | await m => exact h.await? fun hm => hr (hm ▸ rfl)
  | stats => exact ⟨by simp only [ScriptedQueue.respond, hq], h⟩
  | takeLog =>
    obtain ⟨-, hagree⟩ := h.map (fun q => { q with log := #[] }) fun _ _ => rfl
    exact ⟨by simp only [ScriptedQueue.respond, takeLog, Prod.map, hlog], hagree⟩

theorem respondAll (h : AgreeBut name q q') {rs : List Request}
    (hrs : ∀ r ∈ rs, r ≠ .await name) :
    (respondAll rs q).1 = (respondAll rs q').1 ∧
      AgreeBut name (respondAll rs q).2 (respondAll rs q').2 := by
  induction rs generalizing q q' with
  | nil => exact ⟨rfl, h⟩
  | cons r rs ih =>
    obtain ⟨hanswer, hagree⟩ := h.respond (hrs r List.mem_cons_self)
    obtain ⟨hanswers, hagree⟩ := ih hagree fun r hr => hrs r (List.mem_cons_of_mem _ hr)
    exact ⟨congrArg₂ List.cons hanswer hanswers, hagree⟩

end AgreeBut

/-- A result that is dropped is missed by nobody. -/
theorem agreeBut_dropped (q : ScriptedQueue) (t : Operation Script) :
    AgreeBut t.action.name (q.enqueue t false).2 (q.enqueue t true).2 where
  eq := rfl
  lookup n hn := by simp [enqueue, List.lookup_cons, beq_false_of_ne hn]

end ScriptedQueue

namespace Queue

variable {ι ε α σ : Type}

/-- A queue in use, whatever happens to it, is orderly and serves its users. Whoever waits for a
script gets what that script comes to, and whether somebody keeps its result makes no difference to
any other request. -/
theorem operations_in_order {run : Runner ι ε α σ} {s₀ : σ} {w : World ι ε α σ}
    (hw : Reachable run s₀ w) :
    Orderly run w ∧ Served run w ∧
    (∀ (q : ScriptedQueue) (u : ScriptedQueue.World), q.Shows u → ∀ name seq t,
      q.awaited.lookup name = some seq → (seq, t) ∈ u.arrivals →
      (q.await? name).map Prod.fst = some t.action.result) ∧
    ∀ (q : ScriptedQueue) (t : Operation Script) (rs : List ScriptedQueue.Request),
      (∀ r ∈ rs, r ≠ .await t.action.name) →
      let kept := ScriptedQueue.respondAll rs (q.enqueue t false).2
      let dropped := ScriptedQueue.respondAll rs (q.enqueue t true).2
      kept.1 = dropped.1 ∧ dropped.2 = { kept.2 with awaited := dropped.2.awaited } := by
  refine ⟨hw.orderly, hw.orderly.served, fun q u hu _ _ _ => hu.await?, fun q t rs hrs => ?_⟩
  obtain ⟨hanswers, hagree⟩ := (q.agreeBut_dropped t).respondAll hrs
  exact ⟨hanswers, hagree.eq⟩

/-- Two scripts of which the first enqueues the second, and panics. -/
def panicking : Operation Script :=
  .node ⟨"a", .panic "boom"⟩ 0 [.leaf ⟨"b", .value (.text "done")⟩]

/-- After a panic the queue goes on. -/
theorem operations_in_order_after_panic :
    let w := ((World.start #[]).enqueueAll [panicking]).takeUp 1 |>.act Script.run 1 panicking
    w.queue.stats = ⟨2, 1, 1⟩ ∧ w.queue.result? 1 = some (.error (.panicked "boom")) ∧
      Orderly Script.run w ∧
      ∃ w', Moves Script.run w w' ∧ w'.queue.result? 2 = some (.ok (.text "done")) := by
  intro w
  have hw : Reachable Script.run #[] w :=
    .tail (.tail (.single (.enqueue _ [panicking])) (.takeUp rfl rfl))
      (.act rfl rfl (Nat.zero_le 1))
  obtain ⟨horderly, hserved, -, -⟩ := operations_in_order hw
  have harrivals : w.arrivals = [(1, panicking), (2, .leaf ⟨"b", .value (.text "done")⟩)] := rfl
  obtain ⟨w', hm, -, s, -, hr⟩ := hserved.answered 2 (.leaf ⟨"b", .value (.text "done")⟩)
    (by rw [harrivals]; simp)
  exact ⟨rfl, rfl, horderly, w', hm, hr⟩

end Queue

end SheetSync
