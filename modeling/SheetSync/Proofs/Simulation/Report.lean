import Mathlib.Data.List.ReduceOption
import SheetSync.Proofs.Files
import SheetSync.Proofs.Session.Alone
import SheetSync.Proofs.Simulation.Difference
import SheetSync.Simulation.Basic
/-!
What the report of a simulation tells. Every check carries out all writes first, and it records
nothing where the store then has what the document shows, and otherwise the first place where it has
not. Every act is counted once, as an edit, as a check, or by what became of its request, since a
simulation approves of everything and so no request is given up.

Main statement: `report_truthful`.
-/
namespace SheetSync

/-- How many acts are counted by what they are or came to. -/
def Tally.counted (t : Tally) : Nat := t.edits + t.checks + t.transitions + t.failures

namespace Simulation

variable {m n last : Simulation} {path : String}

/-! ## Checks -/

/-- The session with every write carried out. -/
def drained (m : Simulation) : Session := (Session.settle.perform m.session).2

/-- What the document shows at a place; an empty cell is none. -/
def shown? (m : Simulation) (sheet : String) (p : Position) : Option CellState :=
  (m.drained.document.cell sheet p).stored?

/-- What the store has at a place; an empty cell is none. -/
def kept? (m : Simulation) (sheet : String) (p : Position) : Option CellState :=
  m.drained.store.workbook.bind fun b => (b.cell sheet p).stored?

/-- Whether the drained store has what the document shows, everywhere. -/
def Agrees (m : Simulation) : Prop := ∀ sheet p, m.shown? sheet p = m.kept? sheet p

/-- A place, and what document and store have there. -/
def violationAt (m : Simulation) (x : String × Position) : Violation where
  operation := m.tally.operations
  cell := s!"{x.1}!R{x.2.row}C{x.2.col}"
  document := m.shown? x.1 x.2
  store := m.kept? x.1 x.2

/-- What a check is to find: nothing, or the first place where document and store differ. -/
def Finds (m : Simulation) : Option Violation → Prop
  | none => m.Agrees
  | some v => ∃ x, IsFirst m.shown? m.kept? x ∧ v = m.violationAt x

/-- The cells that a check compares. -/
def shownCells (m : Simulation) : Contents := contents m.drained.document.snapshot

def keptCells (m : Simulation) : Contents :=
  contents ((m.drained.store.workbook.map Workbook.snapshot).getD ⟨[]⟩)

/-- What a check records. -/
def finding? (m : Simulation) : Option Violation :=
  (firstDifference? m.shownCells m.keptCells).map fun x =>
    { operation := m.tally.operations
      cell := s!"{x.1}!R{x.2.row}C{x.2.col}"
      document := stateAt m.shownCells x.1 x.2
      store := stateAt m.keptCells x.1 x.2 }

theorem check_eq (m : Simulation) : m.check =
    { m with
      session := m.drained
      tally := { m.tally with checks := m.tally.checks + 1 }
      violations := m.violations ++ m.finding?.toList } := rfl

section Approved

variable (h : m.session.Approved path)
include h

theorem isIdle_drained : m.drained.isIdle := h.perform_settle.1

theorem approved_drained : m.drained.Approved path := h.perform_settle.2

theorem stateAt_shownCells : stateAt m.shownCells = m.shown? := by
  funext sheet p
  refine (stateAt_contents (approved_drained h).document.sheets sheet p).trans ?_
  unfold shown? Document.cell
  cases m.drained.document.sheets.get? sheet <;> rfl

theorem stateAt_keptCells : stateAt m.keptCells = m.kept? := by
  funext sheet p
  unfold keptCells kept?
  cases hbook : m.drained.store.workbook with
  | none => rfl
  | some b =>
    refine (stateAt_contents ((approved_drained h).book b hbook) sheet p).trans ?_
    show _ = (b.cell sheet p).stored?
    unfold Workbook.cell Workbook.cell?
    cases b.sheets.get? sheet <;> rfl

theorem finding?_eq :
    m.finding? = (firstDifference? m.shownCells m.keptCells).map m.violationAt := by
  unfold finding? violationAt
  rw [stateAt_shownCells h, stateAt_keptCells h]

/-- A check records what it is to find. -/
theorem finds_finding? : m.Finds m.finding? := by
  rw [finding?_eq h]
  cases hfirst : firstDifference? m.shownCells m.keptCells with
  | none =>
    rw [firstDifference?_eq_none_iff, stateAt_shownCells h, stateAt_keptCells h] at hfirst
    exact hfirst
  | some x =>
    have hx := isFirst_firstDifference? hfirst
    rw [stateAt_shownCells h, stateAt_keptCells h] at hx
    exact ⟨x, hx, rfl⟩

theorem finding?_eq_none_iff : m.finding? = none ↔ m.Agrees := by
  have hfinds := finds_finding? h
  constructor
  · intro hnone
    rw [hnone] at hfinds
    exact hfinds
  · intro hagrees
    cases hfound : m.finding? with
    | none => rfl
    | some v =>
      rw [hfound] at hfinds
      obtain ⟨x, hx, -⟩ := hfinds
      exact absurd (hagrees x.1 x.2) hx.differs

end Approved

/-- A cell that was written to the store behind the document. -/
example :
    let sheet : Sheet := { name := "Sheet1", cells := .ofEntries [(⟨3, 4⟩, .ofValue (.int 5))] }
    let store : Store := { workbook := some { Workbook.blank with sheets := [("Sheet1", sheet)] } }
    let m : Simulation :=
      { scenario := { directory := "" }, session := { store }, random := { key := .replicate 8 0 } }
    m.finding? = some ⟨0, "Sheet1!R3C4", none, some (.ofValue (.int 5))⟩ := by cbv

/-! ## Acts -/

/-- The simulation as an act begins, which is counted. -/
def begun (m : Simulation) (random : Random) : Simulation :=
  { m with random, tally := { m.tally with operations := m.tally.operations + 1 } }

theorem exists_of_step? (h : m.step? = some n) :
    ∃ a random, m.draw? = some (a, random) ∧ n = (m.begun random).act a := by
  obtain ⟨⟨a, random⟩, hdraw, hn⟩ := Option.bind_eq_some_iff.mp h
  exact ⟨a, random, hdraw, (Option.some.inj hn).symm⟩

/-- What all acts but checks leave as it is. -/
structure SameRecord (m n : Simulation) : Prop where
  scenario : n.scenario = m.scenario
  violations : n.violations = m.violations
  operations : n.tally.operations = m.tally.operations
  checks : n.tally.checks = m.tally.checks

theorem sameRecord_note (m : Simulation) (r : Except SyncError Reply) : SameRecord m (m.note r) := by
  rcases r with e | (d | _ | p | _) <;> exact ⟨rfl, rfl, rfl, rfl⟩

theorem sameRecord_act {a : Act} (ha : a ≠ .checkpoint) : SameRecord m (m.act a) := by
  cases a with
  | checkpoint => exact absurd rfl ha
  | request r =>
    obtain ⟨hscenario, hviolations, hoperations, hchecks⟩ := sameRecord_note
      { m with session := ((Session.request r).perform m.session).2 }
      ((Session.request r).perform m.session).1
    exact ⟨hscenario, hviolations, hoperations, hchecks⟩
  | _ => exact ⟨rfl, rfl, rfl, rfl⟩

@[simp] theorem scenario_act (m : Simulation) (a : Act) : (m.act a).scenario = m.scenario := by
  by_cases ha : a = .checkpoint
  · subst ha
    rfl
  · exact (sameRecord_act ha).scenario

@[simp] theorem operations_act (m : Simulation) (a : Act) :
    (m.act a).tally.operations = m.tally.operations := by
  by_cases ha : a = .checkpoint
  · subst ha
    rfl
  · exact (sameRecord_act ha).operations

/-- Only a check records anything. -/
theorem violations_act (m : Simulation) (a : Act) :
    (m.act a).violations =
      m.violations ++ if a = .checkpoint then m.finding?.toList else [] := by
  by_cases ha : a = .checkpoint
  · subst ha
    rfl
  · rw [if_neg ha, List.append_nil, (sameRecord_act ha).violations]

theorem checks_act (m : Simulation) (a : Act) :
    (m.act a).tally.checks = m.tally.checks + if a = .checkpoint then 1 else 0 := by
  by_cases ha : a = .checkpoint
  · subst ha
    rfl
  · rw [if_neg ha, Nat.add_zero, (sameRecord_act ha).checks]

@[simp] theorem session_note (m : Simulation) (r : Except SyncError Reply) :
    (m.note r).session = m.session := by
  rcases r with e | (d | _ | p | _) <;> rfl

/-- What a request came to is counted, unless it was given up. -/
theorem counted_note (m : Simulation) {r : Except SyncError Reply} (hr : r ≠ .ok .cancelled) :
    (m.note r).tally.counted = m.tally.counted + 1 := by
  rcases r with e | (d | _ | p | _)
  case ok.cancelled => exact absurd rfl hr
  all_goals
    simp only [note, Tally.counted]
    omega

theorem counted_edit (m : Simulation) (cells : List (Position × CellState)) :
    (m.edit cells).tally.counted = m.tally.counted + 1 := by
  simp only [edit, Tally.counted]
  omega

/-- Every act is counted once. -/
theorem counted_act (h : m.session.Approved path) (a : Act) :
    (m.act a).tally.counted = m.tally.counted + 1 := by
  cases a with
  | editCell p s => exact counted_edit m _
  | editBlock p rows cols => exact counted_edit { m with random := _ } _
  | clearCell p => exact counted_edit m _
  | checkpoint =>
    simp only [act, check_eq, Tally.counted]
    omega
  | request r => exact counted_note _ (h.perform_request r).2

theorem approved_act (h : m.session.Approved path) (a : Act) :
    (m.act a).session.Approved path := by
  have hedited : ∀ cells, Session.Approved path
      { m.session with toLink := m.session.toLink.perform (.edit .user defaultSheet cells) } :=
    fun cells => h.withLink (h.toAccountable.perform _)
  cases a with
  | checkpoint => exact approved_drained h
  | request r =>
    show (note _ _).session.Approved path
    rw [session_note]
    exact (h.perform_request r).1
  | _ => exact hedited _

/-- A simulation that approves of everything and has counted its acts. -/
structure IsSound (path : String) (m : Simulation) : Prop where
  session : m.session.Approved path
  counted : m.tally.operations = m.tally.counted

theorem IsSound.act (h : m.IsSound path) (random : Random) (a : Act) :
    ((m.begun random).act a).IsSound path := by
  have happroved : (m.begun random).session.Approved path := h.session
  refine ⟨approved_act happroved a, ?_⟩
  rw [operations_act, counted_act happroved]
  exact congrArg (· + 1) h.counted

/-! ## Whole simulations -/

/-- The acts that take one simulation to another, each with the simulation as it begins. -/
inductive Acted : Simulation → List (Simulation × Act) → Simulation → Prop
  | done (m : Simulation) : Acted m [] m
  | act {m n : Simulation} {a : Act} {random : Random} {acts : List (Simulation × Act)} :
    m.draw? = some (a, random) → Acted ((m.begun random).act a) acts n →
    Acted m ((m.begun random, a) :: acts) n

/-- The simulations in which a check is made, the last one after all acts. -/
def inspected (acts : List (Simulation × Act)) (last : Simulation) : List Simulation :=
  (acts.filter (·.2 = .checkpoint)).map Prod.fst ++ [last]

theorem inspected_cons (n : Simulation) (a : Act) (acts : List (Simulation × Act))
    (last : Simulation) : inspected ((n, a) :: acts) last =
      if a = .checkpoint then n :: inspected acts last else inspected acts last := by
  unfold inspected
  by_cases ha : a = .checkpoint <;> simp [ha]

namespace Acted

variable {acts : List (Simulation × Act)}

theorem operations_eq (h : Acted m acts last) :
    last.tally.operations = m.tally.operations + acts.length := by
  induction h with
  | done m => rfl
  | act hdraw _ ih =>
    rw [ih, operations_act, List.length_cons]
    show _ + 1 + _ = _
    omega

theorem isSound (h : Acted m acts last) (hm : m.IsSound path) :
    last.IsSound path ∧ ∀ e ∈ acts, e.1.session.Approved path := by
  induction h with
  | done m => exact ⟨hm, List.forall_mem_nil _⟩
  | act hdraw _ ih =>
    obtain ⟨hlast, hacts⟩ := ih (hm.act _ _)
    exact ⟨hlast, List.forall_mem_cons.mpr ⟨hm.session, hacts⟩⟩

theorem approved_inspected (h : Acted m acts last) (hm : m.IsSound path) :
    ∀ n ∈ inspected acts last, n.session.Approved path := by
  obtain ⟨hlast, hacts⟩ := h.isSound hm
  intro n hn
  rcases List.mem_append.mp hn with hn | hn
  · obtain ⟨e, he, rfl⟩ := List.mem_map.mp hn
    exact hacts e (List.mem_of_mem_filter he)
  · obtain rfl := List.mem_singleton.mp hn
    exact hlast.session

/-- With the last check, what was recorded is what each check found. -/
theorem check_violations (h : Acted m acts last) :
    last.check.violations = m.violations ++ (inspected acts last).filterMap finding? := by
  induction h with
  | done m => exact congrArg (m.violations ++ ·) (by cases m.finding? <;> rfl)
  | @act m n a random acts hdraw _ ih =>
    rw [ih, violations_act, inspected_cons, List.append_assoc]
    refine congrArg (m.violations ++ ·) ?_
    split
    · rw [List.filterMap_cons]
      cases (m.begun random).finding? <;> rfl
    · rfl

theorem check_checks (h : Acted m acts last) :
    last.check.tally.checks = m.tally.checks + (inspected acts last).length := by
  induction h with
  | done m => rfl
  | @act m n a random acts hdraw _ ih =>
    rw [ih, checks_act, inspected_cons]
    show m.tally.checks + _ + _ = _
    split
    · rw [List.length_cons]
      omega
    · rfl

end Acted

/-- Acts of which the last one was a check that found something. -/
def EndsFinding (acts : List (Simulation × Act)) : Prop :=
  ∃ n, acts.getLast? = some (n, .checkpoint) ∧ n.finding? ≠ none

theorem EndsFinding.cons {acts : List (Simulation × Act)} (h : EndsFinding acts)
    (e : Simulation × Act) : EndsFinding (e :: acts) := by
  obtain ⟨n, hlast, hn⟩ := h
  refine ⟨n, ?_, hn⟩
  rw [List.getLast?_cons, hlast]
  rfl

/-- An act after which something is recorded for the first time is a check that found it. -/
theorem endsFinding_singleton {a : Act} (hclean : m.violations = [])
    (hfound : (m.act a).violations ≠ []) : EndsFinding [(m, a)] := by
  rw [violations_act, hclean, List.nil_append] at hfound
  split at hfound
  · next ha =>
    subst ha
    refine ⟨m, rfl, ?_⟩
    intro hnone
    rw [hnone] at hfound
    exact hfound rfl
  · exact absurd rfl hfound

/-- As many acts are carried out as asked for, unless a check that found something ended them. -/
theorem exists_acted {k : Nat} (h : steps? k m = some last)
    (hclean : m.scenario.stopsAtViolation → m.violations = []) :
    ∃ acts, Acted m acts last ∧ (acts.length = k ∨
      acts.length < k ∧ m.scenario.stopsAtViolation ∧ EndsFinding acts) := by
  induction k generalizing m with
  | zero =>
    obtain rfl := Option.some.inj h
    exact ⟨[], .done m, .inl rfl⟩
  | succ k ih =>
    obtain ⟨n, hstep, h⟩ := Option.bind_eq_some_iff.mp h
    obtain ⟨a, random, hdraw, rfl⟩ := exists_of_step? hstep
    have hscenario : ((m.begun random).act a).scenario = m.scenario := scenario_act _ _
    split at h
    · next hstops =>
      obtain rfl := Option.some.inj h
      rw [hscenario, Bool.and_eq_true] at hstops
      have hfound : EndsFinding [(m.begun random, a)] :=
        endsFinding_singleton (hclean hstops.1) (by simpa using hstops.2)
      refine ⟨_, .act hdraw (.done _), ?_⟩
      cases k with
      | zero => exact .inl rfl
      | succ k => exact .inr ⟨by simp, hstops.1, hfound⟩
    · next hgoes =>
      rw [hscenario] at hgoes
      obtain ⟨acts, hacts, hends⟩ := ih h (by
        rw [hscenario]
        intro hstops
        simpa [hstops] using hgoes)
      refine ⟨_, .act hdraw hacts, ?_⟩
      rw [hscenario] at hends
      rcases hends with hlength | ⟨hlength, hstops, hfound⟩
      · exact .inl (by rw [List.length_cons, hlength])
      · exact .inr ⟨by rw [List.length_cons]; omega, hstops, hfound.cons _⟩

/-! ## The start -/

section Start

variable {sc : Scenario} {files files' : FileTree} {s : Session}

/-- What opening a first workbook comes to in a session that approves of everything. -/
def opening (sc : Scenario) (s : Session) : Except SyncError Reply × Session :=
  (Session.request (.switch .blank)).perform
    { s with prompts := .approving (some (inDirectory sc.directory "untitled.json")) }

/-- Where its directory can be made and its configuration is accepted, a simulation starts if the
new workbook can be had. -/
theorem run_start (hdirectory : (FileTree.makeDirectory sc.directory).run files = (.ok (), files'))
    (hcreate : Session.create sc.config { files := files' } = .ok s) :
    (start sc).run files =
      ((opening sc s).1.map fun _ =>
        { scenario := sc, session := (opening sc s).2, random := .ofSeed sc.seed }, files') := by
  have hmade : ((FileTree.makeDirectory sc.directory).adapt fun _ => .config .unreadable :
      ExceptT SyncError (StateM FileTree) Unit).run files = (.ok (), files') := by
    show (Except.mapError _ ((FileTree.makeDirectory sc.directory).run files).1,
      ((FileTree.makeDirectory sc.directory).run files).2) = _
    rw [hdirectory]
    rfl
  refine (FileTree.run_bind_of_ok hmade).trans ?_
  refine (FileTree.run_bind_of_ok (a := files') rfl).trans ?_
  rw [hcreate]
  refine (FileTree.run_bind_of_ok (a := s) rfl).trans ?_
  unfold opening
  dsimp only
  split
  · next h => rw [h]; rfl
  · next h => rw [h]; rfl

/-- A simulation that started was created and opened a workbook. -/
theorem exists_of_start (h : (start sc).run files = (.ok m, files')) :
    ∃ files₁ s, Session.create sc.config { files := files₁ } = .ok s ∧
      m = { scenario := sc, session := (opening sc s).2, random := .ofSeed sc.seed } := by
  obtain ⟨-, files₁, -, h⟩ := FileTree.exists_of_bind h
  obtain ⟨files₂, files₃, -, h⟩ := FileTree.exists_of_bind h
  obtain ⟨s, files₄, hlifted, h⟩ := FileTree.exists_of_bind h
  have hcreate : Session.create sc.config { files := files₂ } = .ok s := by
    cases hs : Session.create sc.config { files := files₂ } with
    | error e =>
      rw [hs] at hlifted
      cases hlifted
    | ok s =>
      rw [hs] at hlifted
      cases hlifted
      rfl
  dsimp only at h
  split at h
  · cases h
  · next reply t hopening =>
    have hopening : opening sc s = (.ok reply, t) := hopening
    cases h
    exact ⟨files₂, s, hcreate, by rw [hopening]⟩

theorem accountable_create {config : Config} (h : Session.create config { files } = .ok s) :
    s.toLink.Accountable := by
  unfold Session.create at h
  cases hconfig : config.validated with
  | error e =>
    rw [hconfig] at h
    cases h
  | ok c =>
    rw [hconfig] at h
    obtain rfl := Except.ok.inj h
    exact ⟨⟨List.nodup_nil, nofun, nofun⟩, nofun, nofun, rfl⟩

/-- A simulation that starts has done nothing yet. -/
structure IsFresh (sc : Scenario) (m : Simulation) : Prop where
  scenario : m.scenario = sc
  session : m.session.Approved (inDirectory sc.directory "untitled.json")
  tally : m.tally = {}
  violations : m.violations = []

theorem isFresh_start (h : (start sc).run files = (.ok m, files')) : m.IsFresh sc := by
  obtain ⟨files₁, s, hcreate, rfl⟩ := exists_of_start h
  have hlink := accountable_create hcreate
  have happroved : Session.Approved (inDirectory sc.directory "untitled.json")
      { s with prompts := .approving (some (inDirectory sc.directory "untitled.json")) } :=
    ⟨hlink, rfl⟩
  exact ⟨rfl, (happroved.perform_request (.switch .blank)).1, rfl, rfl⟩

end Start

/-! ## The report -/

/-- What a report tells of the acts of a scenario, after which a last check was made. -/
structure IsTruthful (r : Report) (sc : Scenario) (acts : List (Simulation × Act))
    (last : Simulation) : Prop where
  /-- No write is left where a check compares. -/
  settled : ∀ n ∈ inspected acts last, n.drained.isIdle
  /-- Of each check, in their order, what it is to find. -/
  violations : ∃ findings, List.Forall₂ Finds (inspected acts last) findings ∧
    r.violations = findings.reduceOption
  passed : r.passed ↔ ∀ n ∈ inspected acts last, n.Agrees
  operations : r.tally.operations = acts.length
  checks : r.tally.checks = (inspected acts last).length
  balance : r.tally.operations =
    r.tally.edits + (r.tally.checks - 1) + r.tally.transitions + r.tally.failures
  /-- All acts were carried out, unless a check found something and was to end them. -/
  complete : r.tally.operations = sc.operations ∨
    r.tally.operations < sc.operations ∧ sc.stopsAtViolation ∧
      ∃ n, acts.getLast? = some (n, .checkpoint) ∧ ¬ n.Agrees
  pending : r.queue.pending = 0

theorem finds_all {sims : List Simulation} (h : ∀ n ∈ sims, n.session.Approved path) :
    List.Forall₂ Finds sims (sims.map finding?) := by
  rw [List.forall₂_map_right_iff, List.forall₂_same]
  exact fun n hn => finds_finding? (h n hn)

/-- What a simulation that started reports of its acts, whatever numbers it draws. -/
theorem report_truthful {sc : Scenario} {files files' : FileTree} {m₀ m : Simulation}
    {random : Random} (hstart : (start sc).run files = (.ok m₀, files'))
    (hfinish : finish? { m₀ with random } = some m) :
    ∃ acts last, Acted { m₀ with random } acts last ∧ m = last.check ∧
      IsTruthful m.report sc acts last := by
  have hfresh := isFresh_start hstart
  obtain ⟨last, hsteps, hm⟩ := Option.bind_eq_some_iff.mp hfinish
  obtain rfl : m = last.check := (Option.some.inj hm).symm
  obtain ⟨acts, hacts, hends⟩ := exists_acted hsteps fun _ => hfresh.violations
  have hsound : IsSound (inDirectory sc.directory "untitled.json") { m₀ with random } :=
    ⟨hfresh.session, by show m₀.tally.operations = _; rw [hfresh.tally]; rfl⟩
  have happroved := hacts.approved_inspected hsound
  have hviolations : last.check.violations = (inspected acts last).filterMap finding? := by
    rw [hacts.check_violations]
    show m₀.violations ++ _ = _
    rw [hfresh.violations, List.nil_append]
  have hoperations : last.check.tally.operations = acts.length := by
    show last.tally.operations = _
    rw [hacts.operations_eq]
    show m₀.tally.operations + _ = _
    rw [hfresh.tally, Nat.zero_add]
  refine ⟨acts, last, hacts, rfl, ?_⟩
  constructor
  case settled => exact fun n hn => isIdle_drained (happroved n hn)
  case violations =>
    refine ⟨_, finds_all happroved, hviolations.trans ?_⟩
    rw [List.reduceOption, List.filterMap_map]
    rfl
  case passed =>
    show last.check.violations.isEmpty ↔ _
    rw [hviolations, List.isEmpty_iff, List.filterMap_eq_nil_iff]
    exact forall₂_congr fun n hn => finding?_eq_none_iff (happroved n hn)
  case operations => exact hoperations
  case checks =>
    refine hacts.check_checks.trans ?_
    show m₀.tally.checks + _ = _
    rw [hfresh.tally, Nat.zero_add]
  case balance =>
    have hcounted : last.tally.operations = last.tally.counted := (hacts.isSound hsound).1.counted
    show last.tally.operations = last.tally.edits + (last.tally.checks + 1 - 1) +
      last.tally.transitions + last.tally.failures
    rw [hcounted, Nat.add_sub_cancel, Tally.counted]
  case complete =>
    show last.check.tally.operations = _ ∨ last.check.tally.operations < _ ∧ _
    rw [hoperations, ← hfresh.scenario]
    refine hends.imp id ?_
    rintro ⟨hlength, hstops, n, hlast, hfound⟩
    refine ⟨hlength, hstops, n, hlast, ?_⟩
    have hn : n.session.Approved (inDirectory sc.directory "untitled.json") :=
      (hacts.isSound hsound).2 _ (List.mem_of_getLast? hlast)
    exact mt (finding?_eq_none_iff hn).mpr hfound
  case pending =>
    exact (approved_drained (happroved last (by simp [inspected]))).toAccountable.pending_stats
      (Queue.isIdle_iff.mp (isIdle_drained (happroved last (by simp [inspected]))))

/-- A scenario of three acts on a sheet of one cell, in no directory of its own. -/
def brief : Scenario := { directory := "", rows := 1, cols := 1, operations := 3 }

/-- Numbers by which a formula is set, a check is made and a new workbook is begun. -/
def briefNumbers : Random :=
  { key := .replicate 8 0, words := [0, 0, 0, 0, 0, 0, 0, 3435973837, 0, 0, 4252017624] }

/-- The session of the scenario as it is created. -/
def unopened : Session := { maxWriteArea := brief.config.maxWriteArea, config := brief.config }

/-- The scenario as it starts. -/
def opened : Simulation :=
  { scenario := brief, session := (opening brief unopened).2, random := .ofSeed brief.seed }

theorem run_start_brief : (start brief).run {} = (.ok opened, {}) := by
  have hdirectory : (FileTree.makeDirectory brief.directory).run {} = (.ok (), {}) := by
    show (FileTree.ensureAll (FileTree.ancestors "")).run {} = _
    rw [FileTree.ancestors, FileTree.splitOn_slash]
    rfl
  have hopened : (opening brief unopened).1.toBool = true := by decide +kernel
  rw [run_start hdirectory (s := unopened) rfl]
  cases hreply : (opening brief unopened).1 with
  | error e =>
    rw [hreply] at hopened
    cases hopened
  | ok reply => rfl

theorem report_truthful_brief : ∃ m, (start brief).run {} = (.ok opened, {}) ∧
    finish? { opened with random := briefNumbers } = some m ∧
    m.tally = { operations := 3, edits := 1, transitions := 1, checks := 2 } ∧
    ∃ acts last, Acted { opened with random := briefNumbers } acts last ∧ m = last.check ∧
      IsTruthful m.report brief acts last := by
  have htally : (finish? { opened with random := briefNumbers }).any (fun m =>
      m.tally = { operations := 3, edits := 1, transitions := 1, checks := 2 }) = true := by
    decide +kernel
  cases hfinish : finish? { opened with random := briefNumbers } with
  | none =>
    rw [hfinish] at htally
    cases htally
  | some m =>
    rw [hfinish] at htally
    exact ⟨m, run_start_brief, rfl, of_decide_eq_true htally,
      report_truthful run_start_brief hfinish⟩

end Simulation

end SheetSync
