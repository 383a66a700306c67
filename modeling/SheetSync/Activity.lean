/-!
Activities: stateful computations that pause now and then, to let others go on. At a pause an
activity hands out the state that it reached, and it carries on from whatever state it is given
back. Run alone, an activity is a plain state computation with what its surroundings do at each
pause in between. Two activities on one state can run side by side.
-/
namespace SheetSync

/-- What an activity waits for. -/
inductive Pause where
  /-- One turn of everything else. -/
  | turn
  /-- The end of all queued work. -/
  | queue
  /-- A file to be read. -/
  | read
  /-- A file to be written. -/
  | write
  /-- Some time to pass. -/
  | clock
  /-- A workbook's hook to do its work, which goes first whatever else waits. -/
  | hook
deriving DecidableEq, Inhabited

namespace Pause

/-- Of two pauses the one of the lower rank ends first. -/
def rank : Pause → Nat
  | turn => 0
  | queue => 1
  | read => 2
  | write => 3
  | clock => 4
  | hook => 0

/-- Whether the end of one pause ends another one too, which is the case for a turn and for the
queue; a turn also ends the wait for a queue that is `idle` by then. -/
def ends (idle : Bool) : Pause → Pause → Bool
  | turn, turn => true
  | queue, queue => true
  | turn, queue => idle
  | _, _ => false

end Pause

/-- How far an activity came: to its end, or to a pause. -/
inductive Progress (σ α : Type) where
  | done (a : α) (s : σ)
  | paused (k : Pause) (s : σ) (resume : σ → Progress σ α)

/-- A computation on a state that may pause. -/
def Activity (σ α : Type) : Type := σ → Progress σ α

namespace Progress

variable {σ τ α β : Type}

/-- Goes on with another activity at the end. -/
def bind (p : Progress σ α) (f : α → Activity σ β) : Progress σ β :=
  match p with
  | done a s => f a s
  | paused k s resume => paused k s fun s => (resume s).bind f

def map (f : α → β) : Progress σ α → Progress σ β
  | done a s => done (f a) s
  | paused k s resume => paused k s fun s => (resume s).map f

/-- Goes on to the end; `attend` is what the surroundings do at each pause. -/
def finish (attend : Pause → σ → σ) : Progress σ α → α × σ
  | done a s => (a, s)
  | paused k s resume => (resume (attend k s)).finish attend

/-- Progress on a part of a state as progress on the whole. -/
def zoom (part : σ → τ) (put : τ → σ → σ) (s : σ) : Progress τ α → Progress σ α
  | done a t => done a (put t s)
  | paused k t resume => paused k (put t s) fun s => (resume (part s)).zoom part put s

theorem bind_assoc {γ : Type} (p : Progress σ α) (f : α → Activity σ β) (g : β → Activity σ γ) :
    (p.bind f).bind g = p.bind fun a s => (f a s).bind g := by
  induction p with
  | done a s => rfl
  | paused k s resume ih => simp only [bind, ih]

theorem bind_done (p : Progress σ α) : p.bind done = p := by
  induction p with
  | done a s => rfl
  | paused k s resume ih => simp only [bind, ih]

theorem finish_bind (attend : Pause → σ → σ) (p : Progress σ α) (f : α → Activity σ β) :
    (p.bind f).finish attend =
      (f (p.finish attend).1 (p.finish attend).2).finish attend := by
  induction p with
  | done a s => rfl
  | paused k s resume ih => exact ih (attend k s)

theorem finish_map (attend : Pause → σ → σ) (f : α → β) (p : Progress σ α) :
    (p.map f).finish attend = (f (p.finish attend).1, (p.finish attend).2) := by
  induction p with
  | done a s => rfl
  | paused k s resume ih => exact ih (attend k s)

end Progress

namespace Activity

variable {σ τ α β : Type}

instance : Monad (Activity σ) where
  pure a s := .done a s
  bind m f s := (m s).bind f

instance : LawfulMonad (Activity σ) :=
  LawfulMonad.mk' (Activity σ)
    (fun m => funext fun s => (m s).bind_done)
    (fun _ _ => rfl)
    (fun m f g => funext fun s => (m s).bind_assoc f g)

instance : MonadStateOf σ (Activity σ) where
  get s := .done s s
  set s _ := .done () s
  modifyGet f s := .done (f s).1 (f s).2

/-- Waits. -/
def pause (k : Pause) : Activity σ Unit := fun s => .paused k s (.done ())

/-- Runs alone, with what the surroundings do at each pause. -/
def run (attend : Pause → σ → σ) (m : Activity σ α) (s : σ) : α × σ := (m s).finish attend

/-- Acts on a part of a state. -/
def zoom (part : σ → τ) (put : τ → σ → σ) (m : Activity τ α) : Activity σ α :=
  fun s => (m (part s)).zoom part put s

section Run

variable (attend : Pause → σ → σ)

@[simp] theorem run_pure (a : α) (s : σ) : (pure a : Activity σ α).run attend s = (a, s) := rfl

@[simp] theorem run_bind (m : Activity σ α) (f : α → Activity σ β) (s : σ) :
    (m >>= f).run attend s = (f (m.run attend s).1).run attend (m.run attend s).2 :=
  (m s).finish_bind attend f

@[simp] theorem run_get (s : σ) : (get : Activity σ σ).run attend s = (s, s) := rfl

@[simp] theorem run_set (t s : σ) : (set t : Activity σ PUnit).run attend s = ((), t) := rfl

@[simp] theorem run_modify (f : σ → σ) (s : σ) :
    (modify f : Activity σ PUnit).run attend s = ((), f s) := rfl

@[simp] theorem run_pause (k : Pause) (s : σ) :
    (pause k : Activity σ Unit).run attend s = ((), attend k s) := rfl

end Run

/-! ## Steps that may fail -/

/-- Runs a step alone that may fail; what it changed stays changed then. -/
def attempt {ε : Type} (attend : Pause → σ → σ) (m : ExceptT ε (Activity σ) α) (s : σ) :
    Except ε α × σ := Activity.run attend m.run s

section Attempt

variable {ε : Type} (attend : Pause → σ → σ)

@[simp] theorem attempt_pure (a : α) (s : σ) :
    attempt attend (pure a : ExceptT ε (Activity σ) α) s = (.ok a, s) := rfl

@[simp] theorem attempt_throw (e : ε) (s : σ) :
    attempt attend (throw e : ExceptT ε (Activity σ) α) s = (.error e, s) := rfl

@[simp] theorem attempt_lift (m : Activity σ α) (s : σ) :
    attempt attend (ExceptT.lift m : ExceptT ε (Activity σ) α) s =
      (.ok (m.run attend s).1, (m.run attend s).2) :=
  (m s).finish_bind attend _

/-- A step goes on where the one before it ended, unless that one failed. -/
theorem attempt_bind (m : ExceptT ε (Activity σ) α) (f : α → ExceptT ε (Activity σ) β) (s : σ) :
    attempt attend (m >>= f) s =
      match attempt attend m s with
      | (.ok a, s) => attempt attend (f a) s
      | (.error e, s) => (.error e, s) := by
  refine (run_bind attend m.run (ExceptT.bindCont f) s).trans ?_
  rw [attempt]
  cases Activity.run attend m.run s with
  | mk r t => cases r <;> rfl

end Attempt

/-! ## Side by side -/

/-- Goes on with a second activity while a first one is paused. When both are paused, the pause of
the lower rank ends first, and of two that are equal in rank the one that began first: that of the
second activity if it is the `elder`. A hook of the second one is not waited for. -/
def beside (idle : σ → Bool) (k : Pause) (resume : σ → Progress σ α)
    (both : σ → Bool → Activity σ β → Progress σ (α × β)) (elder : Bool) :
    Progress σ β → Progress σ (α × β)
  | .done b s => .paused k s fun s => (resume s).map (·, b)
  | .paused .hook s next => .paused .hook s fun s => beside idle k resume both elder (next s)
  | .paused l s next =>
    if l.rank < k.rank ∨ l = k ∧ elder then
      .paused l s fun s =>
        if l.ends (idle s) k then both s false next
        else beside idle k resume both false (next s)
    else
      .paused k s fun s =>
        if k.ends (idle s) l then both s false next
        else both s true fun s => .paused l s next

/-- Runs an activity from where it came to, with a second one beside it, which is the `elder` if it
is paused already. -/
def alongside (idle : σ → Bool) : Progress σ α → Bool → Activity σ β → Progress σ (α × β)
  | .done a s, _, m => (m s).map (a, ·)
  | .paused .hook s resume, elder, m =>
    .paused .hook s fun s => alongside idle (resume s) elder m
  | .paused k s resume, elder, m =>
    beside idle k resume (fun s elder m => alongside idle (resume s) elder m) elder (m s)

/-- Two activities side by side, the first of which goes first; `idle` tells whether the queue has
nothing to do. -/
def both (idle : σ → Bool) (a : Activity σ α) (b : Activity σ β) : Activity σ (α × β) :=
  fun s => alongside idle (a s) false b

end Activity

end SheetSync
