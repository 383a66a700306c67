import SheetSync.Queue.Basic
import Mathlib.Data.List.Basic
import Mathlib.Logic.Function.Iterate
/-!
Queues of operations that enqueue nothing and never give way. Such a queue runs its operations in
the order in which they came, whether in turns or in one go, and draining it carries the state
through all of them.
-/
namespace SheetSync.Queue

variable {ι ε α σ ρ : Type}

/-- Whether all that waits enqueues nothing and never gives way. -/
def IsPlain (q : Queue ι ρ) : Prop := ∀ e ∈ q.waiting, e.2 = .leaf e.2.action

/-- What waits, in the order in which it will run. -/
def actions (q : Queue ι ρ) : List ι := q.waiting.map fun e => e.2.action

theorem isIdle_iff {q : Queue ι ρ} : q.isIdle ↔ q.waiting = [] := List.isEmpty_iff

theorem actions_eq_nil {q : Queue ι ρ} : q.actions = [] ↔ q.waiting = [] := List.map_eq_nil_iff

/-! ## Enqueueing -/

theorem enqueueAll_eq (q : Queue ι ρ) (ts : List (Operation ι)) :
    q.enqueueAll ts =
      { q with
        waiting := q.waiting ++ (List.range' (q.tail + 1) ts.length).zip ts
        tail := q.tail + ts.length } := by
  cases ts with
  | nil => simp [enqueueAll]
  | cons => rfl

theorem enqueueAll_append (q : Queue ι ρ) (ts us : List (Operation ι)) :
    q.enqueueAll (ts ++ us) = (q.enqueueAll ts).enqueueAll us := by
  -- the numbers of the second part follow those of the first
  have hzip : (List.range' (q.tail + 1) (ts ++ us).length).zip (ts ++ us) =
      (List.range' (q.tail + 1) ts.length).zip ts ++
        (List.range' (q.tail + ts.length + 1) us.length).zip us := by
    rw [← List.zip_append (by simp), List.length_append, Nat.add_right_comm q.tail,
      List.range'_append_1]
  rw [enqueueAll_eq, hzip, enqueueAll_eq, enqueueAll_eq, List.length_append]
  simp only [List.append_assoc, Nat.add_assoc]

theorem map_snd_enqueueAll (q : Queue ι ρ) (ts : List (Operation ι)) :
    (q.enqueueAll ts).waiting.map Prod.snd = q.waiting.map Prod.snd ++ ts := by
  rw [enqueueAll_eq]
  simp only [List.map_append]
  rw [List.map_snd_zip (by simp)]

@[simp] theorem actions_enqueueAll (q : Queue ι ρ) (as : List ι) :
    (q.enqueueAll (as.map .leaf)).actions = q.actions ++ as := by
  have h := congrArg (List.map Operation.action) (map_snd_enqueueAll q (as.map .leaf))
  simpa [actions, List.map_map, Function.comp_def, Operation.leaf, Operation.action] using h

theorem IsPlain.enqueueAll {q : Queue ι ρ} (h : q.IsPlain) (as : List ι) :
    (q.enqueueAll (as.map .leaf)).IsPlain := by
  intro e he
  have hmem : e.2 ∈ (q.enqueueAll (as.map .leaf)).waiting.map Prod.snd :=
    List.mem_map.mpr ⟨e, he, rfl⟩
  rw [map_snd_enqueueAll] at hmem
  rcases List.mem_append.mp hmem with hmem | hmem
  · obtain ⟨f, hf, hfe⟩ := List.mem_map.mp hmem
    rw [← hfe]
    exact h f hf
  · obtain ⟨a, -, ha⟩ := List.mem_map.mp hmem
    rw [← ha]
    rfl

/-! ## Running -/

variable (run : Runner ι ε α σ)

theorem IsPlain.runOne_waiting {q : Of ι ε α} (h : q.IsPlain) (s : σ) :
    (q.runOne run s).1.waiting = q.waiting.tail := by
  unfold runOne
  split
  · next hq => rw [hq, List.tail_nil]
  · next seq t rest hq =>
    have ht : t = .leaf t.action := h (seq, t) (by simp [hq])
    rw [hq, ht]
    rfl

theorem IsPlain.runOne_tail {q : Of ι ε α} (h : q.IsPlain) (s : σ) :
    (q.runOne run s).1.tail = q.tail := by
  unfold runOne
  split
  · rfl
  · next seq t rest hq =>
    have ht : t = .leaf t.action := h (seq, t) (by simp [hq])
    rw [ht]
    rfl

/-- An operation that ran no longer waits. -/
theorem IsPlain.runOne_completed {q : Of ι ε α} (h : q.IsPlain) (s : σ) :
    (q.runOne run s).1.completed + (q.runOne run s).1.waiting.length =
      q.completed + q.waiting.length := by
  rw [h.runOne_waiting]
  unfold runOne
  split
  · next hq => rw [hq, List.tail_nil]
  · next seq t rest hq =>
    have ht : t = .leaf t.action := h (seq, t) (by simp [hq])
    rw [ht, hq, List.tail_cons, List.length_cons]
    show q.completed + 1 + rest.length = q.completed + (rest.length + 1)
    omega

theorem runOne_state (q : Of ι ε α) (s : σ) :
    (q.runOne run s).2 = q.actions.head?.elim s fun a => (run a s).2 := by
  unfold runOne
  split
  · next hq => simp [actions, hq]
  · next seq t rest hq => simp [actions, hq]

theorem IsPlain.runOne {q : Of ι ε α} (h : q.IsPlain) (s : σ) : (q.runOne run s).1.IsPlain := by
  intro e he
  rw [h.runOne_waiting] at he
  exact h e (List.mem_of_mem_tail he)

theorem IsPlain.actions_runOne {q : Of ι ε α} (h : q.IsPlain) (s : σ) :
    (q.runOne run s).1.actions = q.actions.tail := by
  rw [actions, h.runOne_waiting, List.map_tail, actions]

theorem IsPlain.work_eq {q : Queue ι ρ} (h : q.IsPlain) : q.work = q.waiting.length := by
  -- only what waits counts
  obtain ⟨waiting, _, _, _, _, _⟩ := q
  show Operation.sizes (waiting.map Prod.snd) = waiting.length
  replace h : ∀ e ∈ waiting, e.2 = .leaf e.2.action := h
  induction waiting with
  | nil => rfl
  | cons e waiting ih =>
    have he := h e List.mem_cons_self
    have hrest := ih fun f hf => h f (List.mem_cons_of_mem e hf)
    rw [List.map_cons, Operation.sizes, he, hrest, List.length_cons]
    simp [Operation.leaf, Operation.size, Operation.sizes]
    omega

/-- Enough runs, one after the other, carry the state through all that waits. -/
theorem IsPlain.runMany {q : Of ι ε α} (h : q.IsPlain) {n : Nat} (hn : q.waiting.length ≤ n)
    (s : σ) :
    (q.runMany run n s).1.waiting = [] ∧ (q.runMany run n s).1.tail = q.tail ∧
      (q.runMany run n s).2 = q.actions.foldl (fun s a => (run a s).2) s := by
  -- on the number of runs allowed; each takes one operation off a queue that has any
  induction n generalizing q s with
  | zero =>
    have hq : q.waiting = [] := List.length_eq_zero_iff.mp (Nat.le_zero.mp hn)
    simp [Queue.runMany, actions, hq]
  | succ n ih =>
    cases hq : q.waiting with
    | nil => simp [Queue.runMany, actions, hq]
    | cons e rest =>
      have hlen : (q.runOne run s).1.waiting.length ≤ n := by
        rw [h.runOne_waiting, List.length_tail]
        omega
      obtain ⟨hwaiting, htail, hstate⟩ := ih (h.runOne run s) hlen (q.runOne run s).2
      have hacts : q.actions = e.2.action :: rest.map fun e => e.2.action := by simp [actions, hq]
      have hstep : q.runMany run (n + 1) s =
          (q.runOne run s).1.runMany run n (q.runOne run s).2 := by
        simp [Queue.runMany, hq]
      rw [hstep, hwaiting, htail, hstate, h.runOne_tail, h.actions_runOne, runOne_state, hacts]
      exact ⟨rfl, rfl, rfl⟩

theorem IsPlain.drain {q : Of ι ε α} (h : q.IsPlain) (s : σ) :
    (q.drain run s).1.waiting = [] ∧ (q.drain run s).1.tail = q.tail ∧
      (q.drain run s).2 = q.actions.foldl (fun s a => (run a s).2) s :=
  h.runMany run (Nat.le_of_eq h.work_eq.symm) s

/-! ## Running in steps -/

/-- One run, as a step of queue and state. -/
def step (x : Of ι ε α × σ) : Of ι ε α × σ := x.1.runOne run x.2

theorem exists_runMany_eq (n : Nat) (q : Of ι ε α) (s : σ) :
    ∃ m, q.runMany run n s = (step run)^[m] (q, s) := by
  induction n generalizing q s with
  | zero => exact ⟨0, rfl⟩
  | succ n ih =>
    unfold Queue.runMany
    split
    · exact ⟨0, rfl⟩
    · obtain ⟨m, hm⟩ := ih (q.runOne run s).1 (q.runOne run s).2
      exact ⟨m + 1, hm⟩

theorem IsPlain.exists_takeUp_eq {q : Of ι ε α} (h : q.IsPlain) (n : Nat) (s : σ) :
    ∃ m, q.takeUp run n s = (step run)^[m] (q, s) := by
  induction n generalizing q s with
  | zero => exact ⟨0, rfl⟩
  | succ n ih =>
    unfold Queue.takeUp
    split
    · exact ⟨0, rfl⟩
    · next seq t rest hq =>
      have ht : t = .leaf t.action := h (seq, t) (by simp [hq])
      obtain ⟨m, hm⟩ := ih (h.runOne run s) (q.runOne run s).2
      rw [if_pos (by rw [ht]; rfl)]
      exact ⟨m + 1, hm⟩

/-- A turn runs some of what waits, one after the other. -/
theorem IsPlain.exists_turn_eq {q : Of ι ε α} (h : q.IsPlain) (s : σ) :
    ∃ m, q.turn run s = (step run)^[m] (q, s) := by
  unfold Queue.turn
  split
  · split
    · next seq a n ts rest hq =>
      -- an operation that gives way more than once more is not plain
      have ht : Operation.node a (n + 2) ts = .leaf a := h (seq, .node a (n + 2) ts) (by simp [hq])
      simp [Operation.leaf] at ht
    · obtain ⟨m, hm⟩ := (h.runOne run s).exists_takeUp_eq run turnLimit (q.runOne run s).2
      exact ⟨m + 1, hm⟩
  · exact h.exists_takeUp_eq run turnLimit s

end SheetSync.Queue
