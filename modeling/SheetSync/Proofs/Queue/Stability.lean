import SheetSync.Queue.Script
import SheetSync.Proofs.Queue.Turns
/-!
Waiting until nothing waits in a queue. Whoever waits reads the number of the operation that came
last, waits until that operation has finished, and reads the number again; if others came meanwhile
it begins anew. Others may enqueue all the while.

Main statement: `settled_stable`, that the queue has run everything whenever such a wait ends, and
that the waits of a queue are of this kind.
-/
namespace SheetSync

namespace Queue

variable {ι ε α σ : Type} {run : Runner ι ε α σ}

/-- The number of the operation that finished last. -/
def lastFinished (q : Of ι ε α) : Nat := q.results.head?.elim 0 Prod.fst

/-- A wait until nothing waits, from one world to another, and the number that it gives. -/
inductive Drains (run : Runner ι ε α σ) : World ι ε α σ → World ι ε α σ → Nat → Prop where
  | done {w w₁ w₂ : World ι ε α σ} (waited : Moves run w w₁)
      (reached : w.queue.tail ≤ lastFinished w₁.queue) (meanwhile : Moves run w₁ w₂)
      (same : w₂.queue.tail = w.queue.tail) : Drains run w w₂ w.queue.tail
  | again {w w₁ w₂ w' : World ι ε α σ} {t : Nat} (waited : Moves run w w₁)
      (reached : w.queue.tail ≤ lastFinished w₁.queue) (meanwhile : Moves run w₁ w₂)
      (moved : w₂.queue.tail ≠ w.queue.tail) (rest : Drains run w₂ w' t) : Drains run w w' t

/-- A wait until nothing waits, after something else has happened. -/
def Settles (run : Runner ι ε α σ) (w w' : World ι ε α σ) (t : Nat) : Prop :=
  ∃ w₁, Moves run w w₁ ∧ Drains run w₁ w' t

/-- The queue has run everything, and the operation that came last has the number. -/
structure Stable (w : World ι ε α σ) (t : Nat) : Prop where
  tail : w.queue.tail = t
  waiting : w.queue.waiting = []
  submitted : w.queue.stats.submitted = t
  completed : w.queue.stats.completed = t
  pending : w.queue.stats.pending = 0
  finished : ∀ seq op, (seq, op) ∈ w.arrivals → ∃ s r, (seq, s, r) ∈ w.outcomes

/-! ## What moves leave -/

theorem Move.history_prefix {w w' : World ι ε α σ} (h : Move run w w') :
    w.history <+: w'.history := by
  cases h with
  | enqueue ts => exact List.prefix_append _ _
  | takeUp _ _ => exact List.prefix_append _ _
  | giveWay _ _ => exact List.prefix_rfl
  | act _ _ _ => exact (List.prefix_append _ _).trans (List.prefix_append _ _)
  | other s => exact List.prefix_rfl

/-- What has happened stays so. -/
theorem Moves.history_prefix {w w' : World ι ε α σ} (h : Moves run w w') :
    w.history <+: w'.history := by
  induction h with
  | refl => exact List.prefix_rfl
  | tail _ hm ih => exact ih.trans hm.history_prefix

namespace Orderly

variable {w : World ι ε α σ}

theorem length_outcomes (h : Orderly run w) : w.outcomes.length = w.queue.completed := by
  simpa using congrArg List.length h.finished

theorem completed_le_of_moves (h : Orderly run w) {w' : World ι ε α σ} (hm : Moves run w w') :
    w.queue.completed ≤ w'.queue.completed := by
  rw [← h.length_outcomes, ← (h.moves hm).length_outcomes]
  exact (hm.history_prefix.filterMap (·.outcome?)).length_le

theorem tail_le_of_moves (h : Orderly run w) {w' : World ι ε α σ} (hm : Moves run w w') :
    w.queue.tail ≤ w'.queue.tail := by
  rw [← h.length_arrivals, ← (h.moves hm).length_arrivals]
  exact (hm.history_prefix.filterMap (·.arrival?)).length_le

/-- The operations finish in the order of their numbers. -/
theorem lastFinished_eq (h : Orderly run w) : lastFinished w.queue = w.queue.completed := by
  have hhead : lastFinished w.queue = (w.outcomes.map Prod.fst).getLast?.getD 0 := by
    rw [lastFinished, h.results, List.head?_reverse, List.getLast?_map, List.getLast?_map]
    cases w.outcomes.getLast? <;> rfl
  rw [hhead, h.finished]
  cases w.queue.completed with
  | zero => rfl
  | succ n => simp [List.range'_1_concat, Nat.add_comm]

theorem length_waiting (h : Orderly run w) :
    w.queue.waiting.length = w.queue.tail - w.queue.completed := by
  have hlen := congrArg List.length h.waiting
  simpa [h.length_arrivals] using hlen

/-- Nothing waits only when as many have finished as have come. -/
theorem tail_le_completed (h : Orderly run w) (hidle : w.queue.waiting = []) :
    w.queue.tail ≤ w.queue.completed := by
  have hlen := h.length_waiting
  rw [hidle, List.length_nil] at hlen
  omega

/-- Every operation has a result once as many have finished as have come. -/
theorem stable (h : Orderly run w) (ht : w.queue.tail ≤ w.queue.completed) :
    Stable w w.queue.tail := by
  have heq : w.queue.completed = w.queue.tail := Nat.le_antisymm h.completed_le ht
  constructor
  case tail => rfl
  case waiting =>
    have hlen := h.length_waiting
    rw [heq, Nat.sub_self] at hlen
    exact List.length_eq_zero_iff.mp hlen
  case submitted => rfl
  case completed => exact heq
  case pending => simp [stats, QueueStats.pending, heq]
  case finished =>
    intro seq op hop
    have hseq : seq ∈ w.arrivals.map Prod.fst := List.mem_map.mpr ⟨_, hop, rfl⟩
    rw [h.numbered, ← heq, ← h.finished] at hseq
    obtain ⟨⟨_, s, r⟩, hr, rfl⟩ := List.mem_map.mp hseq
    exact ⟨s, r, hr⟩

end Orderly

theorem Drains.moves {w w' : World ι ε α σ} {t : Nat} (h : Drains run w w' t) :
    Moves run w w' := by
  induction h with
  | done waited _ meanwhile _ => exact waited.trans meanwhile
  | again waited _ meanwhile _ _ ih => exact (waited.trans meanwhile).trans ih

/-- When the wait ends, everything has run. -/
theorem Drains.stable {w w' : World ι ε α σ} {t : Nat} (h : Drains run w w' t)
    (hw : Orderly run w) : Stable w' t := by
  -- on the rounds; the last one reads the same number twice, and that operation has finished
  induction h with
  | @done w w₁ w₂ waited reached meanwhile same =>
    have h₁ := hw.moves waited
    have hle := h₁.completed_le_of_moves meanwhile
    rw [h₁.lastFinished_eq] at reached
    rw [← same]
    exact (h₁.moves meanwhile).stable (by omega)
  | again waited _ meanwhile _ _ ih => exact ih ((hw.moves waited).moves meanwhile)

/-- Whoever runs the queue to its end can see that nothing waits. -/
theorem Drains.of_moves {w w' : World ι ε α σ} (hw : Orderly run w) (hm : Moves run w w')
    (hidle : w'.queue.waiting = []) : Drains run w w' w'.queue.tail := by
  have hw' := hw.moves hm
  have hcompleted : w'.queue.tail ≤ lastFinished w'.queue := by
    rw [hw'.lastFinished_eq]
    exact hw'.tail_le_completed hidle
  have htail := hw.tail_le_of_moves hm
  by_cases hsame : w'.queue.tail = w.queue.tail
  · rw [hsame]
    exact .done hm (by omega) .refl hsame
  · exact .again hm (by omega) .refl hsame (.done .refl hcompleted .refl rfl)

end Queue

/-! ## Scripted queues -/

namespace ScriptedQueue

open Queue (Reachable Moves Advances Drains Settles Stable Orderly)

/-- A world of scripts. -/
abbrev World := Queue.World Script String Value (Array String)

/-- Whether a scripted queue shows a world that an empty queue came to. -/
structure Shows (q : ScriptedQueue) (w : World) : Prop where
  reachable : Reachable Script.run #[] w
  queue : w.queue = q.queue
  log : w.state = q.log

namespace Shows

variable {q : ScriptedQueue} {w : World}

theorem orderly (h : q.Shows w) : Orderly Script.run w := h.reachable.orderly

/-- What a run of the queue makes of it. -/
theorem of_canReach (h : q.Shows w) {q' : ScriptedQueue}
    (hr : Queue.CanReach Script.run w (q'.queue, q'.log)) :
    ∃ w', Moves Script.run w w' ∧ q'.Shows w' := by
  obtain ⟨w', hm, hq, hs⟩ := hr
  exact ⟨w', hm, h.reachable.trans hm, hq, hs⟩

theorem giveWay (h : q.Shows w) : ∃ w', Moves Script.run w w' ∧ q.giveWay.Shows w' := by
  have hturn := Queue.CanReach.turn Script.run w
  rw [h.queue, h.log] at hturn
  exact h.of_canReach hturn

theorem giveWays (h : q.Shows w) (n : Nat) :
    ∃ w', Moves Script.run w w' ∧ (giveWays n q).Shows w' := by
  induction n generalizing q w with
  | zero => exact ⟨w, .refl, h⟩
  | succ n ih =>
    obtain ⟨w₁, hm₁, h₁⟩ := h.giveWay
    obtain ⟨w₂, hm₂, h₂⟩ := ih h₁
    exact ⟨w₂, hm₁.trans hm₂, h₂⟩

/-- Asking for something that is there as soon as nothing waits. Once it is there, the queue may
have another turn. -/
theorem reach (h : q.Shows w) (isThere : Queue.Of Script String Value → Bool)
    (hidle : ∀ w', Moves Script.run w w' → w'.queue.waiting = [] → isThere w'.queue) :
    ∃ w₁ w₂, Moves Script.run w w₁ ∧ isThere w₁.queue ∧ Moves Script.run w₁ w₂ ∧
      (q.reach isThere).Shows w₂ := by
  by_cases hthere : isThere q.queue = true
  · refine ⟨w, ?_⟩
    unfold ScriptedQueue.reach
    rw [if_pos hthere]
    by_cases hcredit : q.credit = 0
    · obtain ⟨w', hm, h'⟩ := h.giveWay
      refine ⟨w', .refl, by rwa [h.queue], hm, ?_⟩
      simp only [hcredit, if_pos]
      exact ⟨h'.reachable, h'.queue, h'.log⟩
    · refine ⟨w, .refl, by rwa [h.queue], .refl, ?_⟩
      simp only [if_neg hcredit]
      exact ⟨h.reachable, h.queue, h.log⟩
  · have hturns := Queue.CanReach.turnsUntil Script.run w isThere q.queue.effort
    have hends := Queue.turnsUntil_ends Script.run isThere q.queue.effort q.queue q.log
      q.queue.turnsLeft_le
    rw [h.queue, h.log] at hturns
    obtain ⟨w', hm, hq, hs⟩ := hturns
    refine ⟨w', w', hm, ?_, .refl, ?_⟩
    · rcases hends with hends | hends
      · exact hidle w' hm (by rw [hq]; exact hends)
      · rw [hq]
        exact hends
    · unfold ScriptedQueue.reach
      rw [if_neg hthere]
      exact ⟨h.reachable.trans hm, hq, hs⟩

end Shows

theorem advances_giveWay (q : ScriptedQueue) : Advances q.queue q.giveWay.queue :=
  Advances.turn Script.run q.queue q.log

theorem advances_reach (q : ScriptedQueue) (isThere : Queue.Of Script String Value → Bool) :
    Advances q.queue (q.reach isThere).queue := by
  unfold reach
  split
  · split
    · exact q.advances_giveWay
    · exact .refl q.queue
  · exact Advances.turnsUntil Script.run isThere q.queue.effort q.queue q.log

namespace Shows

variable {q : ScriptedQueue} {w : World}

theorem reachEnd (h : q.Shows w) {n : Nat} (hn : q.queue.work < n) :
    ∃ w', Drains Script.run w w' (ScriptedQueue.reachEnd n q).queue.tail ∧
      (ScriptedQueue.reachEnd n q).Shows w' := by
  -- on the rounds allowed; a round that finds a new tail has run an operation
  induction n generalizing q w with
  | zero => omega
  | succ n ih =>
    obtain ⟨w₁, w₂, hm₁, hthere, hm₂, h₂⟩ :=
      h.reach (fun queue => decide (q.queue.tail ≤ queue.completed)) fun w' hm hidle => by
        rw [← h.queue]
        exact decide_eq_true
          (Nat.le_trans (h.orderly.tail_le_of_moves hm)
            ((h.orderly.moves hm).tail_le_completed hidle))
    have hreached : w.queue.tail ≤ Queue.lastFinished w₁.queue := by
      rw [(h.orderly.moves hm₁).lastFinished_eq, h.queue]
      exact of_decide_eq_true hthere
    have hadvances := q.advances_reach (fun queue => decide (q.queue.tail ≤ queue.completed))
    unfold ScriptedQueue.reachEnd
    by_cases hsame :
        (q.reach (fun queue => decide (q.queue.tail ≤ queue.completed))).queue.tail = q.queue.tail
    · rw [if_pos hsame]
      refine ⟨w₂, ?_, h₂⟩
      rw [hsame, ← h.queue]
      exact .done hm₁ hreached hm₂ (by rw [h₂.queue, hsame, h.queue])
    · rw [if_neg hsame]
      have hwork : (q.reach (fun queue => decide (q.queue.tail ≤ queue.completed))).queue.work < n := by
        have := hadvances.completed_le
        have := hadvances.work_add
        have := mt hadvances.tail_eq hsame
        omega
      obtain ⟨w', hdrains, h'⟩ := ih h₂ hwork
      refine ⟨w', .again hm₁ hreached hm₂ ?_ hdrains, h'⟩
      rw [h₂.queue, h.queue]
      exact hsame

theorem drain (h : q.Shows w) :
    ∃ w', Drains Script.run w w' q.drain.queue.tail ∧ q.drain.Shows w' :=
  h.reachEnd (Nat.lt_succ_self _)

theorem settle (h : q.Shows w) (ticks : Nat) :
    ∃ w', Settles Script.run w w' (q.settle ticks).queue.tail ∧ (q.settle ticks).Shows w' := by
  obtain ⟨w₁, hm, h₁⟩ := h.giveWays ticks
  obtain ⟨w', hdrains, h'⟩ := h₁.drain
  exact ⟨w', ⟨w₁, hm, hdrains⟩, h'⟩

end Shows

end ScriptedQueue

namespace Queue

variable {ι ε α σ : Type}

/-- A wait until nothing waits ends with everything run, whatever came before it and meanwhile. The
waits of a queue are such waits, and they do end: for one that is drained in one go, and for one
whose user gives way first, however often. -/
theorem settled_stable {run : Runner ι ε α σ} {s₀ : σ} {w : World ι ε α σ}
    (hw : Reachable run s₀ w) :
    (∀ w' t, Settles run w w' t → Stable w' t ∧ w.history <+: w'.history) ∧
    (∃ w', Drains run w w' (w.queue.drain run w.state).1.tail ∧
      (w'.queue, w'.state) = w.queue.drain run w.state) ∧
    ∀ (q : ScriptedQueue) (u : ScriptedQueue.World), q.Shows u → ∀ ticks,
      ∃ u', Settles Script.run u u' (q.settle ticks).queue.tail ∧
        Stable u' (q.settle ticks).queue.tail ∧ (q.settle ticks).Shows u' := by
  refine ⟨?_, ?_, ?_⟩
  · rintro w' t ⟨w₁, hm, hdrains⟩
    exact ⟨hdrains.stable (hw.orderly.moves hm), Moves.history_prefix (hm.trans hdrains.moves)⟩
  · obtain ⟨w', hm, hq, hs⟩ := CanReach.drain run w
    have hidle : w'.queue.waiting = [] := by
      rw [hq]
      exact drain_waiting run w.queue w.state
    refine ⟨w', ?_, by rw [hq, hs]⟩
    rw [← hq]
    exact .of_moves hw.orderly hm hidle
  · intro q u hu ticks
    obtain ⟨u', hsettles, hu'⟩ := hu.settle ticks
    obtain ⟨u₁, hm, hdrains⟩ := id hsettles
    exact ⟨u', hsettles, hdrains.stable (hu.orderly.moves hm), hu'⟩

/-- A wait for two scripts of which the first, which gives way, enqueues the second. -/
theorem settled_stable_of_spawned :
    let t : Operation Script := .node ⟨"a", .value .null⟩ 2 [.leaf ⟨"b", .failure "no"⟩]
    ∃ w', Settles Script.run ((World.start #[]).enqueueAll [t]) w' 2 ∧ Stable w' 2 := by
  intro t
  have hw : Reachable Script.run #[] ((World.start #[]).enqueueAll [t]) := .single (.enqueue _ [t])
  obtain ⟨hstable, -, hsettle⟩ := settled_stable hw
  have hshows : (({} : ScriptedQueue).enqueue t false).2.Shows ((World.start #[]).enqueueAll [t]) :=
    ⟨hw, rfl, rfl⟩
  have htail : ((({} : ScriptedQueue).enqueue t false).2.settle 1).queue.tail = 2 := by decide
  obtain ⟨w', hsettles, -, -⟩ := hsettle _ _ hshows 1
  rw [htail] at hsettles
  exact ⟨w', hsettles, (hstable w' 2 hsettles).1⟩

end Queue

end SheetSync
