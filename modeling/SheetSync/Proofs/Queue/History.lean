import SheetSync.Proofs.Queue
import Mathlib.Logic.Relation
/-!
A queue in use. At any moment somebody may put an operation at its end, also while another operation
is under way, and the state on which the operations act may be changed by others. A `World` is a
queue, that state, and all that has happened so far; a `Move` is one thing that happens, as fine as
the points at which an operation can give way.

Main statement: `Reachable.orderly`, what holds of the queue and of its history whatever happened.
-/
namespace SheetSync

namespace Operation

variable {ι : Type}

/-- What an operation does once it has given way often enough. -/
def deed : Operation ι → ι × List (Operation ι)
  | node a _ ts => (a, ts)

@[simp] theorem deed_node (a : ι) (n : Nat) (ts : List (Operation ι)) :
    (node a n ts).deed = (a, ts) := rfl

theorem deed_eq (t : Operation ι) : t.deed = (t.action, t.spawned) := by
  cases t
  rfl

end Operation

namespace Queue

/-- Something that happens to a queue whose operations act on states and come to results. -/
inductive Happening (ι σ ρ : Type) where
  | enqueued (seq : Nat) (t : Operation ι)
  | started (seq : Nat)
  /-- The operation acted on the state and came to the result. -/
  | finished (seq : Nat) (s : σ) (r : ρ)

/-- A stage of an operation. -/
inductive Stage where
  | start (seq : Nat)
  | finish (seq : Nat)
deriving DecidableEq

namespace Happening

variable {ι σ ρ : Type}

def arrival? : Happening ι σ ρ → Option (Nat × Operation ι)
  | enqueued seq t => some (seq, t)
  | _ => none

def stage? : Happening ι σ ρ → Option Stage
  | started seq => some (.start seq)
  | finished seq _ _ => some (.finish seq)
  | enqueued _ _ => none

def outcome? : Happening ι σ ρ → Option (Nat × σ × ρ)
  | finished seq s r => some (seq, s, r)
  | _ => none

end Happening

/-- The stages of so many operations that run one after the other. -/
def stagesUpTo : Nat → List Stage
  | 0 => []
  | n + 1 => stagesUpTo n ++ [.start (n + 1), .finish (n + 1)]

variable {ι ε α σ : Type}

/-- A queue, the state on which its operations act, and what has happened, the oldest first. -/
structure World (ι ε α σ : Type) where
  queue : Of ι ε α
  state : σ
  history : List (Happening ι σ (Except (OpError ε) α))

namespace World

/-- The operations that came, with their numbers, in the order in which they came. -/
def arrivals (w : World ι ε α σ) : List (Nat × Operation ι) := w.history.filterMap (·.arrival?)

def stages (w : World ι ε α σ) : List Stage := w.history.filterMap (·.stage?)

/-- The operations that finished, each with the state on which it acted and its result. -/
def outcomes (w : World ι ε α σ) : List (Nat × σ × Except (OpError ε) α) :=
  w.history.filterMap (·.outcome?)

/-- A queue to which nothing has happened. -/
def start (s : σ) : World ι ε α σ := ⟨{}, s, []⟩

/-- Somebody puts operations at the end. -/
def enqueueAll (w : World ι ε α σ) (ts : List (Operation ι)) : World ι ε α σ :=
  { w with
    queue := w.queue.enqueueAll ts
    history := w.history ++
      ((List.range' (w.queue.tail + 1) ts.length).zip ts).map fun e => .enqueued e.1 e.2 }

/-- The operation that came first starts. -/
def takeUp (w : World ι ε α σ) (seq : Nat) : World ι ε α σ :=
  { w with
    queue := { w.queue with isTaken := true }
    history := w.history ++ [.started seq] }

/-- The operation taken up acts, and with that it finishes; what it enqueues comes before that. -/
def act (run : Runner ι ε α σ) (w : World ι ε α σ) (seq : Nat) (t : Operation ι) :
    World ι ε α σ where
  queue := (w.queue.runOne run w.state).1
  state := (run t.action w.state).2
  history := (w.enqueueAll t.spawned).history ++ [.finished seq w.state (run t.action w.state).1]

end World

/-- One thing that happens. -/
inductive Move (run : Runner ι ε α σ) : World ι ε α σ → World ι ε α σ → Prop where
  | enqueue (w : World ι ε α σ) (ts : List (Operation ι)) : Move run w (w.enqueueAll ts)
  | takeUp {w : World ι ε α σ} {seq : Nat} {t : Operation ι} {rest : List (Nat × Operation ι)}
      (waiting : w.queue.waiting = (seq, t) :: rest) (free : w.queue.isTaken = false) :
      Move run w (w.takeUp seq)
  | giveWay {w : World ι ε α σ} {seq n : Nat} {a : ι} {ts : List (Operation ι)}
      {rest : List (Nat × Operation ι)} (taken : w.queue.isTaken = true)
      (waiting : w.queue.waiting = (seq, .node a (n + 2) ts) :: rest) :
      Move run w
        { w with queue := { w.queue with waiting := (seq, .node a (n + 1) ts) :: rest } }
  | act {w : World ι ε α σ} {seq : Nat} {t : Operation ι} {rest : List (Nat × Operation ι)}
      (taken : w.queue.isTaken = true) (waiting : w.queue.waiting = (seq, t) :: rest)
      (ready : t.yields ≤ 1) : Move run w (w.act run seq t)
  /-- The state is changed from elsewhere. -/
  | other (w : World ι ε α σ) (s : σ) : Move run w { w with state := s }

/-- Whatever happens, one thing after the other. -/
abbrev Moves (run : Runner ι ε α σ) := Relation.ReflTransGen (Move run)

/-- What a queue can come to that begins empty. -/
def Reachable (run : Runner ι ε α σ) (s₀ : σ) : World ι ε α σ → Prop := Moves run (.start s₀)

def isFailure : Except (OpError ε) α → Bool
  | .ok _ => false
  | .error _ => true

/-- What holds of a queue in use. -/
structure Orderly (run : Runner ι ε α σ) (w : World ι ε α σ) : Prop where
  /-- Operations are numbered 1, 2, 3 and so on in the order in which they come. -/
  numbered : w.arrivals.map Prod.fst = List.range' 1 w.queue.tail
  /-- Each one starts when the one before it has finished, and no number is left out. -/
  inTurn : w.stages = stagesUpTo w.queue.completed ++
    if w.queue.isTaken then [.start (w.queue.completed + 1)] else []
  /-- Those that have not finished wait, in the order in which they came. -/
  waiting : w.queue.waiting.map (Prod.map id (·.deed)) =
    (w.arrivals.drop w.queue.completed).map (Prod.map id (·.deed))
  taken : w.queue.isTaken → w.queue.waiting ≠ []
  finished : w.outcomes.map Prod.fst = List.range' 1 w.queue.completed
  /-- A result is what its own operation came to. -/
  own : ∀ seq s r, (seq, s, r) ∈ w.outcomes →
    ∃ t, (seq, t) ∈ w.arrivals ∧ r = (run t.action s).1
  results : w.queue.results = (w.outcomes.map fun o => (o.1, o.2.2)).reverse
  failed : w.queue.failed = w.outcomes.countP fun o => isFailure o.2.2
  completed_le : w.queue.completed ≤ w.queue.tail

/-! ## What a move notes -/

section Notes

variable (w : World ι ε α σ) (ts : List (Operation ι))

@[simp] theorem World.arrivals_start (s : σ) : (World.start s : World ι ε α σ).arrivals = [] := rfl

@[simp] theorem World.stages_start (s : σ) : (World.start s : World ι ε α σ).stages = [] := rfl

@[simp] theorem World.outcomes_start (s : σ) : (World.start s : World ι ε α σ).outcomes = [] := rfl

@[simp] theorem World.arrivals_enqueueAll :
    (w.enqueueAll ts).arrivals =
      w.arrivals ++ (List.range' (w.queue.tail + 1) ts.length).zip ts := by
  simp only [arrivals, enqueueAll, List.filterMap_append, List.filterMap_map]
  congr 1
  exact List.filterMap_some

@[simp] theorem World.stages_enqueueAll : (w.enqueueAll ts).stages = w.stages := by
  simp [stages, enqueueAll, List.filterMap_append, List.filterMap_map,
    Happening.stage?]

@[simp] theorem World.outcomes_enqueueAll : (w.enqueueAll ts).outcomes = w.outcomes := by
  simp [outcomes, enqueueAll, List.filterMap_append, List.filterMap_map,
    Happening.outcome?]

@[simp] theorem World.queue_takeUp (seq : Nat) :
    (w.takeUp seq).queue = { w.queue with isTaken := true } := rfl

@[simp] theorem World.arrivals_takeUp (seq : Nat) : (w.takeUp seq).arrivals = w.arrivals := by
  simp [arrivals, takeUp, Happening.arrival?]

@[simp] theorem World.stages_takeUp (seq : Nat) :
    (w.takeUp seq).stages = w.stages ++ [.start seq] := by
  simp [stages, takeUp, Happening.stage?]

@[simp] theorem World.outcomes_takeUp (seq : Nat) : (w.takeUp seq).outcomes = w.outcomes := by
  simp [outcomes, takeUp, Happening.outcome?]

variable (run : Runner ι ε α σ) (seq : Nat) (t : Operation ι)

@[simp] theorem World.arrivals_act :
    (w.act run seq t).arrivals =
      w.arrivals ++ (List.range' (w.queue.tail + 1) t.spawned.length).zip t.spawned := by
  rw [← World.arrivals_enqueueAll]
  simp [arrivals, act, Happening.arrival?]

@[simp] theorem World.stages_act : (w.act run seq t).stages = w.stages ++ [.finish seq] := by
  rw [← World.stages_enqueueAll w t.spawned]
  simp [stages, act, Happening.stage?]

@[simp] theorem World.outcomes_act :
    (w.act run seq t).outcomes =
      w.outcomes ++ [(seq, w.state, (run t.action w.state).1)] := by
  rw [← World.outcomes_enqueueAll w t.spawned]
  simp [outcomes, act, Happening.outcome?]

end Notes

/-- What a run of the first operation makes of the queue. -/
theorem runOne_eq (run : Runner ι ε α σ) {q : Of ι ε α} (s : σ) {seq : Nat} {t : Operation ι}
    {rest : List (Nat × Operation ι)} (hq : q.waiting = (seq, t) :: rest) :
    q.runOne run s =
      ({ waiting := rest ++ (List.range' (q.tail + 1) t.spawned.length).zip t.spawned
         isTaken := false
         tail := q.tail + t.spawned.length
         completed := q.completed + 1
         failed := q.failed + if isFailure (run t.action s).1 then 1 else 0
         results := (seq, (run t.action s).1) :: q.results }, (run t.action s).2) := by
  unfold runOne
  rw [hq]
  simp only [enqueueAll_eq, finish]
  cases (run t.action s).1 <;> rfl

/-! ## What every move keeps -/

namespace Orderly

variable {run : Runner ι ε α σ} {w : World ι ε α σ}

theorem length_arrivals (h : Orderly run w) : w.arrivals.length = w.queue.tail := by
  simpa using congrArg List.length h.numbered

/-- The operation that waits first is the one that came after all that finished. -/
theorem head (h : Orderly run w) {seq : Nat} {t : Operation ι} {rest : List (Nat × Operation ι)}
    (hq : w.queue.waiting = (seq, t) :: rest) :
    seq = w.queue.completed + 1 ∧ w.queue.completed < w.queue.tail ∧
      ∃ u, (seq, u) ∈ w.arrivals ∧ u.deed = t.deed := by
  have hlt : w.queue.completed < w.queue.tail := by
    have hlen := congrArg List.length h.waiting
    rw [hq] at hlen
    simp [h.length_arrivals] at hlen
    omega
  have hget : w.queue.completed < w.arrivals.length := by rwa [h.length_arrivals]
  have hnum : (w.arrivals[w.queue.completed]).1 = w.queue.completed + 1 := by
    have := List.getElem_of_eq h.numbered (i := w.queue.completed) (by simpa using hget)
    simpa [Nat.add_comm] using this
  have hdrop := h.waiting
  rw [hq, List.drop_eq_getElem_cons hget] at hdrop
  simp only [List.map_cons, List.cons.injEq, Prod.map, id_eq, Prod.mk.injEq] at hdrop
  obtain ⟨⟨hseq, hdeed⟩, -⟩ := hdrop
  refine ⟨hseq.trans hnum, hlt, (w.arrivals[w.queue.completed]).2, ?_, hdeed.symm⟩
  rw [hseq]
  exact List.getElem_mem hget

theorem start (s : σ) : Orderly run (World.start s) where
  numbered := rfl
  inTurn := rfl
  waiting := rfl
  taken h := nomatch h
  finished := rfl
  own _ _ _ h := nomatch h
  results := rfl
  failed := rfl
  completed_le := Nat.le_refl 0

theorem enqueueAll (h : Orderly run w) (ts : List (Operation ι)) :
    Orderly run (w.enqueueAll ts) := by
  have hq : (w.enqueueAll ts).queue = { w.queue with
      waiting := w.queue.waiting ++ (List.range' (w.queue.tail + 1) ts.length).zip ts
      tail := w.queue.tail + ts.length } := enqueueAll_eq _ ts
  constructor
  case numbered =>
    rw [hq, World.arrivals_enqueueAll, List.map_append, h.numbered, List.map_fst_zip (by simp),
      Nat.add_comm w.queue.tail 1, List.range'_append_1]
  case inTurn =>
    rw [hq, World.stages_enqueueAll]
    exact h.inTurn
  case waiting =>
    rw [hq, World.arrivals_enqueueAll]
    simp only [List.map_append, h.waiting]
    rw [List.drop_append_of_le_length (by rw [h.length_arrivals]; exact h.completed_le),
      List.map_append]
  case taken =>
    rw [hq]
    intro ht
    simp [h.taken ht]
  case finished =>
    rw [hq, World.outcomes_enqueueAll]
    exact h.finished
  case own =>
    intro seq s r hr
    rw [World.outcomes_enqueueAll] at hr
    obtain ⟨t, ht, hown⟩ := h.own seq s r hr
    exact ⟨t, by simp [ht], hown⟩
  case results =>
    rw [hq, World.outcomes_enqueueAll]
    exact h.results
  case failed =>
    rw [hq, World.outcomes_enqueueAll]
    exact h.failed
  case completed_le =>
    rw [hq]
    have := h.completed_le
    show w.queue.completed ≤ w.queue.tail + ts.length
    omega

theorem takeUp (h : Orderly run w) {seq : Nat} {t : Operation ι}
    {rest : List (Nat × Operation ι)} (hq : w.queue.waiting = (seq, t) :: rest)
    (hfree : w.queue.isTaken = false) : Orderly run (w.takeUp seq) where
  numbered := by simpa using h.numbered
  inTurn := by
    obtain ⟨rfl, -, -⟩ := h.head hq
    rw [World.stages_takeUp, h.inTurn, hfree]
    simp
  waiting := by simpa using h.waiting
  taken _ := by simp [hq]
  finished := by simpa using h.finished
  own := by simpa using h.own
  results := by simpa using h.results
  failed := by simpa using h.failed
  completed_le := h.completed_le

theorem giveWay (h : Orderly run w) {seq n : Nat} {a : ι} {ts : List (Operation ι)}
    {rest : List (Nat × Operation ι)}
    (hq : w.queue.waiting = (seq, .node a (n + 2) ts) :: rest) :
    Orderly run
      { w with queue := { w.queue with waiting := (seq, .node a (n + 1) ts) :: rest } } where
  numbered := h.numbered
  inTurn := h.inTurn
  waiting := by
    have hw := h.waiting
    rw [hq] at hw
    exact hw
  taken _ := List.cons_ne_nil _ _
  finished := h.finished
  own := h.own
  results := h.results
  failed := h.failed
  completed_le := h.completed_le

theorem act (h : Orderly run w) {seq : Nat} {t : Operation ι}
    {rest : List (Nat × Operation ι)} (htaken : w.queue.isTaken = true)
    (hq : w.queue.waiting = (seq, t) :: rest) : Orderly run (w.act run seq t) := by
  obtain ⟨hseq, hlt, u, hu, hdeed⟩ := h.head hq
  have hqueue : (w.act run seq t).queue = (w.queue.runOne run w.state).1 := rfl
  rw [runOne_eq run w.state hq] at hqueue
  constructor
  case numbered =>
    rw [hqueue, World.arrivals_act, List.map_append, h.numbered, List.map_fst_zip (by simp),
      Nat.add_comm w.queue.tail 1, List.range'_append_1]
  case inTurn =>
    have hin := h.inTurn
    rw [htaken] at hin
    rw [hqueue, World.stages_act, hin, hseq]
    simp [stagesUpTo]
  case waiting =>
    have hw := h.waiting
    have hdrop : (w.arrivals.drop (w.queue.completed + 1)).map (Prod.map id (·.deed)) =
        rest.map (Prod.map id (·.deed)) := by
      rw [← List.drop_drop, List.map_drop, ← hw, hq]
      rfl
    rw [hqueue, World.arrivals_act,
      List.drop_append_of_le_length (by rw [h.length_arrivals]; exact hlt)]
    simp only [List.map_append, hdrop]
  case taken =>
    rw [hqueue]
    exact fun ht => nomatch ht
  case finished =>
    rw [hqueue, World.outcomes_act, List.map_append, h.finished, hseq]
    simp [List.range'_1_concat, Nat.add_comm]
  case own =>
    intro seq' s r hr
    rw [World.outcomes_act, List.mem_append, List.mem_singleton] at hr
    rcases hr with hr | hr
    · obtain ⟨t', ht', hown⟩ := h.own seq' s r hr
      exact ⟨t', by simp [ht'], hown⟩
    · obtain ⟨rfl, rfl, rfl⟩ : seq' = seq ∧ s = w.state ∧ r = (run t.action w.state).1 := by
        simpa using hr
      have hact : u.action = t.action := by
        rw [Operation.deed_eq, Operation.deed_eq] at hdeed
        exact congrArg Prod.fst hdeed
      exact ⟨u, by simp [hu], by rw [hact]⟩
  case results =>
    rw [hqueue, World.outcomes_act]
    simp [h.results]
  case failed =>
    rw [hqueue, World.outcomes_act, List.countP_append]
    simp [h.failed, List.countP_cons]
  case completed_le =>
    rw [hqueue]
    show w.queue.completed + 1 ≤ w.queue.tail + t.spawned.length
    omega

theorem move (h : Orderly run w) {w' : World ι ε α σ} (hm : Move run w w') : Orderly run w' := by
  cases hm with
  | enqueue ts => exact h.enqueueAll ts
  | takeUp hq hfree => exact h.takeUp hq hfree
  | giveWay _ hq => exact h.giveWay hq
  | act htaken hq _ => exact h.act htaken hq
  | other s => exact ⟨h.1, h.2, h.3, h.4, h.5, h.6, h.7, h.8, h.9⟩

theorem moves (h : Orderly run w) {w' : World ι ε α σ} (hm : Moves run w w') :
    Orderly run w' := by
  induction hm with
  | refl => exact h
  | tail _ hm ih => exact ih.move hm

end Orderly

theorem Reachable.orderly {run : Runner ι ε α σ} {s₀ : σ} {w : World ι ε α σ}
    (h : Reachable run s₀ w) : Orderly run w := (Orderly.start s₀).moves h

end Queue

end SheetSync
