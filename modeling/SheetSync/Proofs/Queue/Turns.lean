import SheetSync.Proofs.Queue.History
/-!
Running a queue, in turns or in one go. All of it is made of moves, so what holds of a queue
whatever happens to it holds of these runs; and they get somewhere: each turn runs an operation or
brings it closer to its run, so enough of them reach what is waited for.

Main statements: `CanReach.turnsUntil` and `CanReach.drain` (the runs are made of moves),
`turnsUntil_ends` and `drain_waiting` (they run for long enough).
-/
namespace SheetSync

namespace Operation

variable {ι : Type}

theorem efforts_append (ts us : List (Operation ι)) :
    efforts (ts ++ us) = efforts ts + efforts us := by
  induction ts with
  | nil => simp [efforts]
  | cons t ts ih => simp [efforts, ih, Nat.add_assoc]

theorem sizes_append (ts us : List (Operation ι)) : sizes (ts ++ us) = sizes ts + sizes us := by
  induction ts with
  | nil => simp [sizes]
  | cons t ts ih => simp [sizes, ih, Nat.add_assoc]

theorem effort_eq (t : Operation ι) : t.effort = t.yields + 1 + efforts t.spawned := by
  cases t
  simp [effort, yields, spawned]

theorem size_eq (t : Operation ι) : t.size = sizes t.spawned + 1 := by
  cases t
  simp [size, spawned]

end Operation

namespace Queue

variable {ι ε α σ : Type} (run : Runner ι ε α σ)

/-! ## Runs are made of moves -/

/-- Whether the world can come to a queue and a state. -/
def CanReach (w : World ι ε α σ) (x : Of ι ε α × σ) : Prop :=
  ∃ w', Moves run w w' ∧ w'.queue = x.1 ∧ w'.state = x.2

namespace CanReach

theorem refl (w : World ι ε α σ) : CanReach run w (w.queue, w.state) := ⟨w, .refl, rfl, rfl⟩

/-- A run that begins where another one ends. -/
theorem bind {run : Runner ι ε α σ} {w : World ι ε α σ} {x y : Of ι ε α × σ} (hx : CanReach run w x)
    (hy : ∀ w' : World ι ε α σ, w'.queue = x.1 → w'.state = x.2 → CanReach run w' y) :
    CanReach run w y := by
  obtain ⟨w', hw', hq, hs⟩ := hx
  obtain ⟨w'', hw'', hy⟩ := hy w' hq hs
  exact ⟨w'', hw'.trans hw'', hy⟩

/-- A run that takes up where another one leaves off, wherever that is. -/
theorem andThen {run : Runner ι ε α σ} {w : World ι ε α σ} {x : Of ι ε α × σ} (hx : CanReach run w x)
    (f : Of ι ε α × σ → Of ι ε α × σ)
    (hf : ∀ w' : World ι ε α σ, CanReach run w' (f (w'.queue, w'.state))) :
    CanReach run w (f x) := by
  refine hx.bind fun w' hq hs => ?_
  have hw' := hf w'
  rw [hq, hs] at hw'
  exact hw'

/-- The operation taken up may give way until it is ready. -/
theorem ready {w : World ι ε α σ} {seq : Nat} {a : ι} {n : Nat} {ts : List (Operation ι)}
    {rest : List (Nat × Operation ι)} (htaken : w.queue.isTaken = true)
    (hq : w.queue.waiting = (seq, .node a n ts) :: rest) :
    ∃ m, m ≤ 1 ∧
      CanReach run w ({ w.queue with waiting := (seq, .node a m ts) :: rest }, w.state) := by
  -- on how often the operation is still to give way
  induction n generalizing w with
  | zero => exact ⟨0, Nat.zero_le 1, w, .refl, by rw [← hq], rfl⟩
  | succ n ih =>
    cases n with
    | zero => exact ⟨1, Nat.le_refl 1, w, .refl, by rw [← hq], rfl⟩
    | succ n =>
      obtain ⟨m, hm, w', hmoves, hreach⟩ := ih
        (w := { w with queue := { w.queue with waiting := (seq, .node a (n + 1) ts) :: rest } })
        htaken rfl
      exact ⟨m, hm, w', .head (.giveWay htaken hq) hmoves, hreach⟩

theorem runOne_of_taken {w : World ι ε α σ} (htaken : w.queue.isTaken = true) :
    CanReach run w (w.queue.runOne run w.state) := by
  cases hq : w.queue.waiting with
  | nil =>
    have hrun : w.queue.runOne run w.state = (w.queue, w.state) := by simp [runOne, hq]
    rw [hrun]
    exact refl run w
  | cons e rest =>
    obtain ⟨seq, a, n, ts⟩ := e
    obtain ⟨m, hm, hready⟩ := ready run htaken hq
    refine hready.bind fun w' hq' hs' => ?_
    have hwaiting : w'.queue.waiting = (seq, .node a m ts) :: rest := by rw [hq']
    have hact : Move run w' (w'.act run seq (.node a m ts)) :=
      .act (by rw [hq']; exact htaken) hwaiting hm
    have hstate : (w'.queue.runOne run w'.state).2 = (run a w'.state).2 := by
      rw [runOne_eq run w'.state hwaiting]
      rfl
    -- how often an operation gives way makes no difference to its run
    have hsame : w'.queue.runOne run w'.state = w.queue.runOne run w.state := by
      rw [runOne_eq run w'.state hwaiting, runOne_eq run w.state hq, hq', hs']
      rfl
    refine ⟨_, .single hact, congrArg Prod.fst hsame, ?_⟩
    rw [← hsame, hstate]
    rfl

theorem runOne (w : World ι ε α σ) : CanReach run w (w.queue.runOne run w.state) := by
  by_cases htaken : w.queue.isTaken = true
  · exact runOne_of_taken run htaken
  · cases hq : w.queue.waiting with
    | nil =>
      have hrun : w.queue.runOne run w.state = (w.queue, w.state) := by simp [Queue.runOne, hq]
      rw [hrun]
      exact refl run w
    | cons e rest =>
      obtain ⟨seq, t⟩ := e
      have htakeUp : Move run w (w.takeUp seq) := .takeUp hq (by simpa using htaken)
      obtain ⟨w', hmoves, hreach⟩ := runOne_of_taken run (w := w.takeUp seq) rfl
      have hsame : (w.takeUp seq).queue.runOne run (w.takeUp seq).state =
          w.queue.runOne run w.state := by
        rw [runOne_eq run _ hq, runOne_eq run (q := (w.takeUp seq).queue) _ hq]
        rfl
      rw [hsame] at hreach
      exact ⟨w', .head htakeUp hmoves, hreach⟩

theorem runMany (w : World ι ε α σ) (n : Nat) :
    CanReach run w (w.queue.runMany run n w.state) := by
  induction n generalizing w with
  | zero => exact refl run w
  | succ n ih =>
    unfold Queue.runMany
    split
    · exact refl run w
    · exact (runOne run w).andThen (fun x => x.1.runMany run n x.2) ih

theorem drain (w : World ι ε α σ) : CanReach run w (w.queue.drain run w.state) :=
  runMany run w w.queue.work

theorem takeUp (w : World ι ε α σ) (n : Nat) :
    CanReach run w (w.queue.takeUp run n w.state) := by
  induction n generalizing w with
  | zero => exact refl run w
  | succ n ih =>
    unfold Queue.takeUp
    split
    · exact refl run w
    · next seq t rest hq =>
      split
      · exact (runOne run w).andThen (fun x => x.1.takeUp run n x.2) ih
      · by_cases htaken : w.queue.isTaken = true
        · exact ⟨w, .refl, by rw [← htaken], rfl⟩
        · exact ⟨w.takeUp seq, .single (.takeUp hq (by simpa using htaken)), rfl, rfl⟩

theorem turn (w : World ι ε α σ) : CanReach run w (w.queue.turn run w.state) := by
  unfold Queue.turn
  split
  · next htaken =>
    split
    · next seq a n ts rest hq => exact ⟨_, .single (.giveWay htaken hq), rfl, rfl⟩
    · exact (runOne run w).andThen (fun x => x.1.takeUp run turnLimit x.2) fun w' =>
        takeUp run w' turnLimit
  · exact takeUp run w turnLimit

theorem turnsUntil (w : World ι ε α σ) (holds : Of ι ε α → Bool) (n : Nat) :
    CanReach run w (w.queue.turnsUntil run holds n w.state) := by
  induction n generalizing w with
  | zero => exact refl run w
  | succ n ih =>
    unfold Queue.turnsUntil
    split
    · exact refl run w
    · exact (turn run w).andThen (fun x => x.1.turnsUntil run holds n x.2) ih

end CanReach

/-! ## Runs get somewhere -/

theorem work_eq (q : Of ι ε α) {seq : Nat} {t : Operation ι} {rest : List (Nat × Operation ι)}
    (hq : q.waiting = (seq, t) :: rest) :
    q.work = t.size + Operation.sizes (rest.map Prod.snd) := by
  simp [work, hq, Operation.sizes]

theorem effort_eq (q : Of ι ε α) {seq : Nat} {t : Operation ι} {rest : List (Nat × Operation ι)}
    (hq : q.waiting = (seq, t) :: rest) :
    q.effort = t.effort + Operation.efforts (rest.map Prod.snd) := by
  simp [effort, hq, Operation.efforts]

theorem work_runOne (q : Of ι ε α) (s : σ) (hq : q.waiting ≠ []) :
    (q.runOne run s).1.work + 1 = q.work := by
  obtain ⟨⟨seq, t⟩, rest, hq⟩ := List.exists_cons_of_ne_nil hq
  rw [runOne_eq run s hq, work_eq q hq, Operation.size_eq]
  simp [work, List.map_snd_zip, Operation.sizes_append]
  omega

theorem effort_runOne (q : Of ι ε α) (s : σ) {seq : Nat} {t : Operation ι}
    {rest : List (Nat × Operation ι)} (hq : q.waiting = (seq, t) :: rest) :
    (q.runOne run s).1.effort + t.yields + 1 = q.effort := by
  rw [runOne_eq run s hq, effort_eq q hq, Operation.effort_eq]
  simp [effort, List.map_snd_zip, Operation.efforts_append]
  omega

theorem runMany_waiting (n : Nat) (q : Of ι ε α) (s : σ) (hn : q.work ≤ n) :
    (q.runMany run n s).1.waiting = [] := by
  induction n generalizing q s with
  | zero =>
    cases hq : q.waiting with
    | nil => simp [runMany, hq]
    | cons e rest =>
      have := work_runOne run q s (by simp [hq])
      omega
  | succ n ih =>
    unfold runMany
    split
    · next hq => simpa using hq
    · next hq =>
      have hwork := work_runOne run q s (by simpa using hq)
      exact ih (q.runOne run s).1 (q.runOne run s).2 (by omega)

/-- A drained queue has nothing left. -/
theorem drain_waiting (q : Of ι ε α) (s : σ) : (q.drain run s).1.waiting = [] :=
  runMany_waiting run q.work q s (Nat.le_refl _)

/-- A bound on the turns that are left: an operation taken up has had one of its own. -/
def turnsLeft (q : Of ι ε α) : Nat :=
  match q.waiting with
  | [] => 0
  | (_, t) :: _ => if q.isTaken ∧ t.yields ≠ 0 then q.effort - 1 else q.effort

theorem turnsLeft_le (q : Of ι ε α) : q.turnsLeft ≤ q.effort := by
  unfold turnsLeft
  split
  · exact Nat.zero_le _
  · split
    · exact Nat.sub_le _ _
    · exact Nat.le_refl _

theorem turnsLeft_takeUp (n : Nat) (q : Of ι ε α) (s : σ) :
    (q.takeUp run n s).1.turnsLeft ≤ q.effort := by
  induction n generalizing q s with
  | zero => exact q.turnsLeft_le
  | succ n ih =>
    unfold takeUp
    split
    · exact q.turnsLeft_le
    · next seq t rest hq =>
      split
      · have := effort_runOne run q s hq
        have := ih (q.runOne run s).1 (q.runOne run s).2
        show ((q.runOne run s).1.takeUp run n (q.runOne run s).2).1.turnsLeft ≤ q.effort
        omega
      · exact turnsLeft_le _

/-- A turn of a queue in which something waits leaves fewer of them. -/
theorem turnsLeft_turn (q : Of ι ε α) (s : σ) (hq : q.waiting ≠ []) :
    (q.turn run s).1.turnsLeft < q.turnsLeft := by
  obtain ⟨⟨seq, t⟩, rest, hq⟩ := List.exists_cons_of_ne_nil hq
  have hrun := effort_runOne run q s hq
  have htakeUp := turnsLeft_takeUp run turnLimit (q.runOne run s).1 (q.runOne run s).2
  unfold turn
  by_cases htaken : q.isTaken = true
  · rw [if_pos htaken]
    obtain ⟨a, n, ts⟩ := t
    match n, hq with
    | 0, hq | 1, hq =>
      simp only [hq]
      simp [turnsLeft, hq, htaken, Operation.yields] at hrun htakeUp ⊢
      omega
    | n + 2, hq =>
      simp [turnsLeft, hq, htaken, effort, Operation.efforts, Operation.effort, Operation.yields]
      omega
  · rw [if_neg htaken]
    have hleft : q.turnsLeft = q.effort := by simp [turnsLeft, hq, htaken]
    have hstep : turnLimit = (turnLimit - 1) + 1 := rfl
    rw [hstep, takeUp, hleft]
    simp only [hq]
    split
    · have := turnsLeft_takeUp run (turnLimit - 1) (q.runOne run s).1 (q.runOne run s).2
      show ((q.runOne run s).1.takeUp run (turnLimit - 1) (q.runOne run s).2).1.turnsLeft <
        q.effort
      omega
    · next hyields =>
      simp [turnsLeft, hq, hyields, effort] at hrun ⊢
      omega

/-- Turns that are many enough reach what is waited for, or run everything. -/
theorem turnsUntil_ends (holds : Of ι ε α → Bool) (n : Nat) (q : Of ι ε α) (s : σ)
    (hn : q.turnsLeft ≤ n) :
    (q.turnsUntil run holds n s).1.waiting = [] ∨ holds (q.turnsUntil run holds n s).1 := by
  induction n generalizing q s with
  | zero =>
    left
    by_contra hq
    have := turnsLeft_turn run q s hq
    omega
  | succ n ih =>
    unfold turnsUntil
    split
    · next h => simpa [isIdle] using h
    · next h =>
      have hq : q.waiting ≠ [] := fun hq => h (by simp [isIdle, hq])
      have hturn := turnsLeft_turn run q s hq
      exact ih (q.turn run s).1 (q.turn run s).2 (by omega)

/-- How a queue stands to what becomes of it while only its own operations enqueue. -/
structure Advances (q q' : Of ι ε α) : Prop where
  completed_le : q.completed ≤ q'.completed
  work_add : q'.work + q'.completed = q.work + q.completed
  tail_eq : q'.completed = q.completed → q'.tail = q.tail

namespace Advances

theorem refl (q : Of ι ε α) : Advances q q := ⟨Nat.le_refl _, rfl, fun _ => rfl⟩

theorem trans {q q' q'' : Of ι ε α} (h : Advances q q') (h' : Advances q' q'') :
    Advances q q'' where
  completed_le := Nat.le_trans h.completed_le h'.completed_le
  work_add := h'.work_add.trans h.work_add
  tail_eq hc := by
    have := h.completed_le
    have := h'.completed_le
    exact (h'.tail_eq (by omega)).trans (h.tail_eq (by omega))

theorem runOne (q : Of ι ε α) (s : σ) : Advances q (q.runOne run s).1 := by
  cases hq : q.waiting with
  | nil =>
    have hrun : q.runOne run s = (q, s) := by simp [Queue.runOne, hq]
    rw [hrun]
    exact refl q
  | cons e rest =>
    have hwork := work_runOne run q s (by simp [hq])
    have hcompleted : (q.runOne run s).1.completed = q.completed + 1 := by
      rw [runOne_eq run s hq]
    exact ⟨by omega, by omega, by omega⟩

theorem takeUp (n : Nat) (q : Of ι ε α) (s : σ) : Advances q (q.takeUp run n s).1 := by
  induction n generalizing q s with
  | zero => exact refl q
  | succ n ih =>
    unfold Queue.takeUp
    split
    · exact refl q
    · split
      · exact (runOne run q s).trans (ih (q.runOne run s).1 (q.runOne run s).2)
      · exact ⟨Nat.le_refl _, rfl, fun _ => rfl⟩

theorem turn (q : Of ι ε α) (s : σ) : Advances q (q.turn run s).1 := by
  unfold Queue.turn
  split
  · split
    · next seq a n ts rest hq =>
      refine ⟨Nat.le_refl _, ?_, fun _ => rfl⟩
      simp [work, hq, Operation.sizes, Operation.size]
    · exact (runOne run q s).trans (takeUp run turnLimit (q.runOne run s).1 (q.runOne run s).2)
  · exact takeUp run turnLimit q s

theorem turnsUntil (holds : Of ι ε α → Bool) (n : Nat) (q : Of ι ε α) (s : σ) :
    Advances q (q.turnsUntil run holds n s).1 := by
  induction n generalizing q s with
  | zero => exact refl q
  | succ n ih =>
    unfold Queue.turnsUntil
    split
    · exact refl q
    · exact (turn run q s).trans (ih (q.turn run s).1 (q.turn run s).2)

end Advances

end Queue

end SheetSync
