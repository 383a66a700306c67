/-!
A queue that runs operations one at a time in the order in which they came. An operation that fails
or panics does not stop those behind it. An operation may put further operations at the end of the
queue while it runs; the tree of them is finite, so a drained queue is reached after as many runs as
there are operations in all the trees.

A queue that is not drained in one go runs in turns. In a turn it takes up operations until one of
them gives way, none is left, or it has taken up as many as a turn may have.
-/
namespace SheetSync

/-- Why an operation gave no value. -/
inductive OpError (ε : Type) where
  | failed (error : ε)
  | panicked (message : String)
  | closed
deriving DecidableEq, Inhabited

namespace OpError

variable {ε : Type}

/-- The operation's own error, if it ran and failed. -/
def failure? : OpError ε → Option ε
  | failed e => some e
  | _ => none

def message? (text : ε → Option String) : OpError ε → Option String
  | failed e => (text e).map ("operation failed: " ++ ·)
  | panicked m => some ("operation panicked: " ++ m)
  | closed => some "dispatch queue closed"

end OpError

/-- An operation, how often it gives way before it does anything, and what it enqueues. -/
inductive Operation (ι : Type) where
  | node (action : ι) (yields : Nat) (spawned : List (Operation ι))

namespace Operation

variable {ι : Type}

/-- An operation that enqueues nothing and never gives way. -/
def leaf (action : ι) : Operation ι := .node action 0 []

def action : Operation ι → ι
  | node a _ _ => a

def yields : Operation ι → Nat
  | node _ n _ => n

def spawned : Operation ι → List (Operation ι)
  | node _ _ ts => ts

mutual

/-- The number of operations in the tree. -/
def size : Operation ι → Nat
  | node _ _ ts => sizes ts + 1

def sizes : List (Operation ι) → Nat
  | [] => 0
  | t :: ts => size t + sizes ts

end

mutual

/-- How often the operations in the tree give way, and how many they are. -/
def effort : Operation ι → Nat
  | node _ n ts => n + 1 + efforts ts

def efforts : List (Operation ι) → Nat
  | [] => 0
  | t :: ts => effort t + efforts ts

end

end Operation

/-- The operations that wait, each with its number, and what became of the others. -/
structure Queue (ι ρ : Type) where
  waiting : List (Nat × Operation ι) := []
  /-- Whether the first operation that waits was taken up and gave way. -/
  isTaken : Bool := false
  /-- The number of the operation that came last. -/
  tail : Nat := 0
  completed : Nat := 0
  failed : Nat := 0
  /-- The results so far, the latest first. -/
  results : List (Nat × ρ) := []

/-- The counters of a queue. -/
structure QueueStats where
  submitted : Nat := 0
  completed : Nat := 0
  failed : Nat := 0
deriving DecidableEq, Inhabited

namespace QueueStats

def pending (s : QueueStats) : Nat := s.submitted - s.completed

end QueueStats

namespace Queue

variable {ι ε α σ : Type}

/-- Puts operations at the end and numbers them on. -/
def enqueueAll {ρ : Type} (q : Queue ι ρ) : List (Operation ι) → Queue ι ρ
  | [] => q
  | ts =>
    { q with
      waiting := q.waiting ++ (List.range' (q.tail + 1) ts.length).zip ts
      tail := q.tail + ts.length }

def enqueue {ρ : Type} (q : Queue ι ρ) (t : Operation ι) : Queue ι ρ := q.enqueueAll [t]

/-- How an operation acts on a state, and what it comes to. -/
abbrev Runner (ι ε α σ : Type) := ι → σ → Except (OpError ε) α × σ

abbrev Of (ι ε α : Type) := Queue ι (Except (OpError ε) α)

/-- Notes the result of an operation. The result is handed over, the failures and the completions
are counted and the number of completions is published in one step: the worker does not wait for
anything in between, so no other task sees one of them without the rest. -/
def finish (q : Of ι ε α) (seq : Nat) (r : Except (OpError ε) α) : Of ι ε α :=
  { q with
    completed := q.completed + 1
    failed := match r with
      | .ok _ => q.failed
      | .error _ => q.failed + 1
    results := (seq, r) :: q.results }

/-- Runs the operation that came first. -/
def runOne (run : Runner ι ε α σ) (q : Of ι ε α) (s : σ) : Of ι ε α × σ :=
  match q.waiting with
  | [] => (q, s)
  | (seq, t) :: rest =>
    let (r, s) := run t.action s
    let q : Of ι ε α := { q with waiting := rest, isTaken := false }
    -- what it enqueues goes behind all that waits
    ((q.enqueueAll t.spawned).finish seq r, s)

/-- Runs operations one after the other, at most so many. -/
def runMany (run : Runner ι ε α σ) : Nat → Of ι ε α → σ → Of ι ε α × σ
  | 0, q, s => (q, s)
  | n + 1, q, s =>
    if q.waiting.isEmpty then (q, s)
    else
      let (q, s) := runOne run q s
      runMany run n q s

/-- The number of operations that are still to run. -/
def work {ρ : Type} (q : Queue ι ρ) : Nat := Operation.sizes (q.waiting.map Prod.snd)

/-- Runs until nothing waits. -/
def drain (run : Runner ι ε α σ) (q : Of ι ε α) (s : σ) : Of ι ε α × σ :=
  runMany run q.work q s

def result? {ρ : Type} (q : Queue ι ρ) (seq : Nat) : Option ρ := q.results.lookup seq

def isIdle {ρ : Type} (q : Queue ι ρ) : Bool := q.waiting.isEmpty

/-! ## Turns -/

/-- How many operations a turn takes up at most. -/
def turnLimit : Nat := 128

/-- Takes up so many operations, each of which runs at once unless it gives way. -/
def takeUp (run : Runner ι ε α σ) : Nat → Of ι ε α → σ → Of ι ε α × σ
  | 0, q, s => (q, s)
  | n + 1, q, s =>
    match q.waiting with
    | [] => (q, s)
    | (_, t) :: _ =>
      if t.yields = 0 then
        let (q, s) := runOne run q s
        takeUp run n q s
      else ({ q with isTaken := true }, s)

/-- A turn. It begins with the operation taken up before, which may give way again. -/
def turn (run : Runner ι ε α σ) (q : Of ι ε α) (s : σ) : Of ι ε α × σ :=
  if q.isTaken then
    match q.waiting with
    | (seq, .node a (n + 2) ts) :: rest =>
      ({ q with waiting := (seq, .node a (n + 1) ts) :: rest }, s)
    | _ =>
      let (q, s) := runOne run q s
      takeUp run turnLimit q s
  else takeUp run turnLimit q s

/-- A bound on the turns that it takes to run everything: each one runs an operation or brings it
closer to its run. -/
def effort {ρ : Type} (q : Queue ι ρ) : Nat := Operation.efforts (q.waiting.map Prod.snd)

/-- Turns, one after the other, until something holds or nothing waits. -/
def turnsUntil (run : Runner ι ε α σ) (holds : Of ι ε α → Bool) :
    Nat → Of ι ε α → σ → Of ι ε α × σ
  | 0, q, s => (q, s)
  | n + 1, q, s =>
    if q.isIdle || holds q then (q, s)
    else
      let (q, s) := turn run q s
      turnsUntil run holds n q s

def stats {ρ : Type} (q : Queue ι ρ) : QueueStats := ⟨q.tail, q.completed, q.failed⟩

end Queue

end SheetSync
