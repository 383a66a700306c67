/-!
The phases that a change of workbook goes through. Opening and creating walk from a stable phase
over confirming, draining and closing to loading and back to active; saving leaves active only for
itself. A failure from closing on rolls back.
-/
namespace SheetSync

/-- A phase of the session. -/
inductive Phase where
  | idle
  | confirming
  | draining
  | beforeClose
  | closing
  | loading
  | active
  | rollingBack
  | saving
deriving DecidableEq, Inhabited

namespace Phase

def name : Phase → String
  | idle => "idle"
  | confirming => "confirming"
  | draining => "draining"
  | beforeClose => "before_close_hook"
  | closing => "closing"
  | loading => "loading"
  | active => "active"
  | rollingBack => "rolling_back"
  | saving => "saving"

def all : List Phase :=
  [idle, confirming, draining, beforeClose, closing, loading, active, rollingBack, saving]

/-- The phases in which nothing is under way. -/
def isStable : Phase → Bool
  | idle | active => true
  | _ => false

/-- The phases that may follow. A declined confirmation returns to the stable phase it came from. -/
def allowed : Phase → List Phase
  | idle => [confirming]
  | confirming => [draining, idle, active]
  | draining => [beforeClose, closing]
  | beforeClose => [closing]
  | closing => [loading, rollingBack]
  | loading => [active, rollingBack]
  | active => [confirming, saving]
  | rollingBack => [idle, active]
  | saving => [active]

/-- Whether one phase may follow another. -/
def Permits (source target : Phase) : Prop := target ∈ source.allowed

instance (source target : Phase) : Decidable (Permits source target) :=
  inferInstanceAs (Decidable (target ∈ source.allowed))

end Phase

end SheetSync
