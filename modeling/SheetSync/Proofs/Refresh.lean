import SheetSync.Refresh
import SheetSync.Proofs.Keyed
import Mathlib.Logic.Relation
/-!
How the schedules of workbooks change. A workbook has one schedule for a query, whatever is done to
the book: `RefreshBook.Reachable.isProper`. So schedules that move to another identity, where they
are put one after the other, come to stand behind those for other queries, in their order and as
they were: `RefreshBook.moved_migrate`.
-/
namespace SheetSync

theorem WorkbookId.text_inj {id id' : WorkbookId} : id.text = id'.text ↔ id = id' := by
  cases id
  cases id'
  simp

namespace Schedule

/-- The queries of some schedules. -/
def queries (l : List Schedule) : List String := l.map (·.query)

/-- Schedules in place of those for the same queries, and after all others. -/
def replacing (moved rest : List Schedule) : List Schedule :=
  rest.filter (·.query ∉ queries moved) ++ moved

variable {s : Schedule} {l : List Schedule}

theorem queries_put (s : Schedule) (l : List Schedule) :
    queries (s.put l) = (queries l).filter (· ≠ s.query) ++ [s.query] := by
  simp [queries, put, List.filter_map, Function.comp_def]

theorem nodup_queries_put (h : (queries l).Nodup) (s : Schedule) : (queries (s.put l)).Nodup := by
  rw [queries_put, List.nodup_append]
  refine ⟨h.filter _, List.nodup_singleton _, ?_⟩
  intro q hq q' hq' heq
  obtain ⟨-, hne⟩ := List.mem_filter.mp hq
  rw [List.mem_singleton.mp hq'] at heq
  exact of_decide_eq_true hne heq

/-- Schedules whose queries differ do not displace each other when they are put. -/
theorem foldl_put {moved : List Schedule} (h : (queries moved).Nodup) (rest : List Schedule) :
    moved.foldl (fun l s => s.put l) rest = replacing moved rest := by
  induction moved using List.reverseRecOn with
  | nil => simp [replacing, queries]
  | append_singleton moved s ih =>
    obtain ⟨hmoved, -, hne⟩ := List.nodup_append.mp (by simpa [queries] using h)
    have hkept : moved.filter (·.query ≠ s.query) = moved := by
      rw [List.filter_eq_self]
      intro m hm
      simpa using hne m.query (List.mem_map_of_mem hm) s.query
    rw [List.foldl_append, ih hmoved]
    show put s (replacing moved rest) = _
    rw [put, replacing, List.filter_append, hkept, List.filter_filter, replacing,
      ← List.append_assoc]
    congr 2
    apply List.filter_congr
    intro t _
    rw [Bool.eq_iff_iff, Bool.and_eq_true, decide_eq_true_eq, decide_eq_true_eq, decide_eq_true_eq]
    simp [queries, and_comm]

theorem query_ran? {time : Instant} {s' : Schedule} (h : s.ran? time = some s') :
    s'.query = s.query := by
  obtain ⟨next, -, h⟩ := Option.bind_eq_some_iff.mp h
  cases h
  rfl

end Schedule

namespace RefreshBook

open Schedule (queries replacing)

variable {b b' : RefreshBook}

theorem queries_updateFirst? {query : String} {f : Schedule → Option Schedule}
    (hf : ∀ {s s'}, f s = some s' → s'.query = s.query) {l l' : List Schedule}
    (h : updateFirst? query f l = some l') : queries l' = queries l := by
  induction l generalizing l' with
  | nil =>
    cases h
    rfl
  | cons s l ih =>
    unfold updateFirst? at h
    split at h
    · obtain ⟨s', hs, h⟩ := Option.bind_eq_some_iff.mp h
      cases h
      simp [queries, hf hs]
    · obtain ⟨l', hl, h⟩ := Option.bind_eq_some_iff.mp h
      cases h
      exact congrArg (s.query :: ·) (ih hl)

/-! ## What each operation does to the schedules of a workbook -/

theorem schedules_set (b : RefreshBook) (id : WorkbookId) (l : List Schedule) (j : WorkbookId) :
    (RefreshBook.mk (b.entries.set id.text l)).schedules j =
      if j = id then l else b.schedules j := by
  simp only [schedules, Keyed.get?_set, WorkbookId.text_inj]
  split <;> rfl

theorem schedules_put (b : RefreshBook) (id : WorkbookId) (s : Schedule) (j : WorkbookId) :
    (b.put id s).schedules j = if j = id then s.put (b.schedules id) else b.schedules j :=
  b.schedules_set id _ j

theorem schedules_remove (b : RefreshBook) (id j : WorkbookId) :
    (b.remove id).schedules j = if j = id then [] else b.schedules j := by
  simp only [schedules, remove, Keyed.get?_erase, WorkbookId.text_inj]
  split <;> rfl

theorem schedules_foldl_put (l : List Schedule) (b : RefreshBook) (id j : WorkbookId) :
    (l.foldl (fun book s => book.put id s) b).schedules j =
      if j = id then l.foldl (fun l s => s.put l) (b.schedules id) else b.schedules j := by
  induction l generalizing b with
  | nil =>
    split
    · next h => rw [h]; rfl
    · rfl
  | cons s l ih =>
    rw [List.foldl_cons, ih, schedules_put, schedules_put, if_pos rfl]
    split <;> rfl

/-! ## One schedule for a query -/

/-- Whether no workbook has two schedules for one query. -/
def IsProper (b : RefreshBook) : Prop := ∀ id, (queries (b.schedules id)).Nodup

namespace IsProper

/-- Only the schedules of one workbook matter that are set. -/
theorem set (hb : b.IsProper) (id : WorkbookId) {l : List Schedule} (hl : (queries l).Nodup) :
    (RefreshBook.mk (b.entries.set id.text l)).IsProper := by
  intro j
  rw [schedules_set]
  split
  · exact hl
  · exact hb j

theorem put (hb : b.IsProper) (id : WorkbookId) (s : Schedule) : (b.put id s).IsProper :=
  hb.set id (Schedule.nodup_queries_put (hb id) s)

theorem remove (hb : b.IsProper) (id : WorkbookId) : (b.remove id).IsProper := by
  intro j
  rw [schedules_remove]
  split
  · exact List.nodup_nil
  · exact hb j

theorem foldl_put (hb : b.IsProper) (id : WorkbookId) (l : List Schedule) :
    (l.foldl (fun book s => book.put id s) b).IsProper := by
  induction l generalizing b with
  | nil => exact hb
  | cons s l ih => exact ih (hb.put id s)

theorem recordRun (hb : b.IsProper) {id : WorkbookId} {query : String} {time : Instant}
    (h : b.recordRun? id query time = some b') : b'.IsProper := by
  unfold recordRun? at h
  split at h
  · obtain ⟨l, hl, h⟩ := Option.bind_eq_some_iff.mp h
    cases h
    refine hb.set id ?_
    rw [queries_updateFirst? Schedule.query_ran? hl]
    exact hb id
  · cases h
    exact hb

theorem migrate (hb : b.IsProper) (old new : WorkbookId) : (b.migrate old new).2.IsProper := by
  unfold RefreshBook.migrate
  split
  · exact hb
  · exact (hb.remove old).foldl_put new _

end IsProper

/-- What one operation makes of a book. -/
inductive Step (b : RefreshBook) : RefreshBook → Prop
  | put (id : WorkbookId) (s : Schedule) : Step b (b.put id s)
  | recordRun {b' : RefreshBook} (id : WorkbookId) (query : String) (time : Instant) :
    b.recordRun? id query time = some b' → Step b b'
  | migrate (old new : WorkbookId) : Step b (b.migrate old new).2
  | remove (id : WorkbookId) : Step b (b.remove id)

/-- What operations make of a book one after the other. -/
abbrev Evolves := Relation.ReflTransGen Step

/-- Whether a book has come about from the empty one. -/
def Reachable (b : RefreshBook) : Prop := Evolves {} b

theorem Step.isProper (h : Step b b') (hb : b.IsProper) : b'.IsProper := by
  cases h with
  | put id s => exact hb.put id s
  | recordRun id query time h => exact hb.recordRun h
  | migrate old new => exact hb.migrate old new
  | remove id => exact hb.remove id

theorem Reachable.isProper (h : b.Reachable) : b.IsProper := by
  induction h with
  | refl => exact fun _ => List.nodup_nil
  | tail _ hstep ih => exact hstep.isProper ih

theorem Reachable.evolves (hb : b.Reachable) (h : Evolves b b') : b'.Reachable := hb.trans h

/-! ## Migration -/

/-- How a book is left by schedules that moved from one identity to another. -/
structure Moved (b : RefreshBook) (old new : WorkbookId) (b' : RefreshBook) : Prop where
  source : b'.schedules old = []
  target : b'.schedules new = replacing (b.schedules old) (b.schedules new)
  others : ∀ id, id ≠ old → id ≠ new → b'.schedules id = b.schedules id

theorem migrate_self (b : RefreshBook) (id : WorkbookId) : b.migrate id id = (0, b) := if_pos rfl

theorem moved_migrate (hb : b.IsProper) {old new : WorkbookId} (h : old ≠ new) :
    (b.migrate old new).1 = (b.schedules old).length ∧ Moved b old new (b.migrate old new).2 := by
  have hschedules : ∀ id, (b.migrate old new).2.schedules id =
      if id = new then replacing (b.schedules old) (b.schedules new)
      else if id = old then [] else b.schedules id := by
    intro id
    rw [migrate, if_neg h]
    dsimp only
    rw [schedules_foldl_put, schedules_remove, schedules_remove, if_neg (Ne.symm h),
      Schedule.foldl_put (hb old)]
  refine ⟨?_, ?_, ?_, fun id hold hnew => ?_⟩
  · rw [migrate, if_neg h]
  · rw [hschedules, if_neg h, if_pos rfl]
  · rw [hschedules, if_pos rfl]
  · rw [hschedules, if_neg hnew, if_neg hold]

/-- Schedules that move are not lost. -/
theorem mem_schedules_migrate (hb : b.IsProper) (old new : WorkbookId) {s : Schedule}
    (hs : s ∈ b.schedules old) : s ∈ (b.migrate old new).2.schedules new := by
  by_cases h : old = new
  · subst h
    rw [migrate_self]
    exact hs
  · rw [(moved_migrate hb h).2.target, replacing]
    exact List.mem_append_right _ hs

end RefreshBook

end SheetSync
