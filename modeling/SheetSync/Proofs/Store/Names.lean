import SheetSync.Proofs.Store.Reopen
import Mathlib.Data.List.Dedup
/-!
The names that a local store lists. A definition takes the place of every name of the same text, in
whichever scope that one is. So the last definition of each text is listed, in the order of
definition, and of a text that is defined in two scopes only one definition is left. A list that
keeps one definition for each scope and text is the same just where this does not happen.

Main statement: `Store.listed_names`.
-/
namespace SheetSync

/-! ## The latest of each key -/

section Latest

variable {α κ ι : Type} [DecidableEq κ] [DecidableEq ι] {key : α → κ}

/-- The items after which none of the same key comes. -/
def latest (key : α → κ) (as : List α) : List α := as.pwFilter fun a b => key a ≠ key b

@[simp] theorem latest_nil (key : α → κ) : latest key [] = [] := rfl

theorem map_latest (key : α → κ) (as : List α) : (latest key as).map key = (as.map key).dedup := by
  rw [List.dedup, List.pwFilter_map]
  rfl

theorem latest_cons (key : α → κ) (a : α) (as : List α) :
    latest key (a :: as) = if key a ∈ as.map key then latest key as else a :: latest key as := by
  have hiff : (∀ b ∈ latest key as, key a ≠ key b) ↔ key a ∉ as.map key := by
    rw [← List.mem_dedup, ← map_latest]
    simp [eq_comm]
  by_cases h : key a ∈ as.map key
  · rw [if_pos h]
    exact List.pwFilter_cons_of_neg fun hne => hiff.mp hne h
  · rw [if_neg h]
    exact List.pwFilter_cons_of_pos (hiff.mpr h)

/-- A further item takes the place of the one that has its key. -/
theorem latest_concat (key : α → κ) (as : List α) (a : α) :
    latest key (as ++ [a]) = (latest key as).filter (fun b => key b ≠ key a) ++ [a] := by
  induction as with
  | nil => rfl
  | cons b as ih =>
    by_cases hb : key b ∈ as.map key
    · have hb' : key b ∈ (as ++ [a]).map key := by simp [hb]
      rw [List.cons_append, latest_cons, if_pos hb', ih, latest_cons, if_pos hb]
    · by_cases ha : key b = key a
      · have hb' : key b ∈ (as ++ [a]).map key := by simp [ha]
        rw [List.cons_append, latest_cons, if_pos hb', ih, latest_cons, if_neg hb]
        simp [ha]
      · have hb' : key b ∉ (as ++ [a]).map key := by
          rw [List.map_append, List.mem_append]
          simp [hb, ha]
        rw [List.cons_append, latest_cons, if_neg hb', ih, latest_cons, if_neg hb]
        simp [ha]

theorem mem_latest_iff {as : List α} {a : α} :
    a ∈ latest key as ↔ as.findRev? (fun b => key b = key a) = some a := by
  rw [List.findRev?_eq_find?_reverse]
  induction as using List.reverseRecOn with
  | nil => simp
  | append_singleton as b ih =>
    rw [latest_concat, List.reverse_concat, List.find?_cons]
    by_cases h : key b = key a
    · simp [h, eq_comm]
    · have hne : a ≠ b := by
        intro heq
        exact h (heq ▸ rfl)
      simp [h, Ne.symm h, hne, ih]

/-- What is the latest of a coarser key is the latest of its own. -/
theorem latest_sublist_latest (key : α → κ) (f : κ → ι) (as : List α) :
    (latest (fun a => f (key a)) as).Sublist (latest key as) := by
  induction as with
  | nil => exact List.Sublist.slnil
  | cons a as ih =>
    rw [latest_cons, latest_cons]
    by_cases ha : key a ∈ as.map key
    · have hf : f (key a) ∈ as.map fun a => f (key a) := by
        obtain ⟨b, hb, heq⟩ := List.mem_map.mp ha
        exact List.mem_map.mpr ⟨b, hb, congrArg f heq⟩
      rw [if_pos ha, if_pos hf]
      exact ih
    · rw [if_neg ha]
      split
      · exact ih.cons a
      · exact ih.cons_cons a

/-- A coarser key keeps as much as the fine one just where it tells no less apart. -/
theorem latest_eq_latest_iff (key : α → κ) (f : κ → ι) (as : List α) :
    latest (fun a => f (key a)) as = latest key as ↔
      ∀ a ∈ as, ∀ b ∈ as, f (key a) = f (key b) → key a = key b := by
  constructor
  · intro heq a ha b hb hf
    -- the latest of both keys are kept by the coarse key, which keeps one of them only
    have hmem : ∀ c ∈ as, key c ∈ (latest key as).map key := by
      intro c hc
      rw [map_latest, List.mem_dedup]
      exact List.mem_map_of_mem hc
    obtain ⟨a', ha', hka⟩ := List.mem_map.mp (hmem a ha)
    obtain ⟨b', hb', hkb⟩ := List.mem_map.mp (hmem b hb)
    rw [← heq] at ha' hb'
    have hsame : a' = b' := by
      have hnodup := List.nodup_dedup (as.map fun a => f (key a))
      rw [← map_latest] at hnodup
      apply List.inj_on_of_nodup_map hnodup ha' hb'
      rw [hka, hkb, hf]
    rw [← hka, ← hkb, hsame]
  · intro h
    induction as with
    | nil => rfl
    | cons a as ih =>
      have hrest := ih fun b hb c hc => h b (List.mem_cons_of_mem a hb) c (List.mem_cons_of_mem a hc)
      have hiff : f (key a) ∈ as.map (fun b => f (key b)) ↔ key a ∈ as.map key := by
        simp only [List.mem_map]
        constructor
        · intro ⟨b, hb, heq⟩
          exact ⟨b, hb, h b (List.mem_cons_of_mem a hb) a List.mem_cons_self heq⟩
        · intro ⟨b, hb, heq⟩
          exact ⟨b, hb, congrArg f heq⟩
      rw [latest_cons, latest_cons, hrest]
      simp only [hiff]

end Latest

namespace DefinedName

/-- What a definition is for: a text in a scope. -/
def qualified (n : DefinedName) : Option String × String := (n.sheet, n.name)

end DefinedName

namespace Workbook

theorem names_defineName (b : Workbook) (n : DefinedName) :
    (b.defineName n).names = b.names.filter (fun m => m.name ≠ n.name) ++ [n] := rfl

theorem names_addSheet (b : Workbook) (id name : String) :
    (b.addSheet id name).names = b.names := by
  unfold addSheet
  split <;> rfl

theorem names_of_addTable {b b' : Workbook} {t : Table} (h : b.addTable t = .ok b') :
    b'.names = b.names := by
  unfold addTable at h
  cases hs : b.sheet t.sheet with
  | error e =>
    rw [hs] at h
    cases h
  | ok s =>
    rw [hs] at h
    rw [← Except.ok.inj h]

end Workbook

namespace Store

/-! ## Names of an edited workbook -/

/-- The name that an edit defines. -/
def Edit.defined? : Edit → Option DefinedName
  | defineName n => some n
  | _ => none

/-- A local store after a new workbook was made in it and then edited. -/
def edited (old : Option Workbook) (files : FileTree) (edits : List Edit) : Store :=
  edits.foldl (fun s e => (e.command.perform s).2)
    (newWorkbook.perform { workbook := old, files }).2

/-- An edit that defines a name puts it at the end, in place of those of its text. Every other edit
leaves the names as they are. -/
theorem Holds.edit {s : Store} {b : Workbook} (h : s.Holds b) (e : Edit) :
    ∃ b', (e.command.perform s).2.Holds b' ∧
      b'.names = match e.defined? with
        | some n => b.names.filter (fun m => m.name ≠ n.name) ++ [n]
        | none => b.names := by
  obtain ⟨kind, workbook, watch, files⟩ := s
  obtain ⟨rfl, rfl, rfl⟩ := h
  cases e with
  | write w =>
    refine ⟨b.after w, ?_, (b.sameFrame_after w).names⟩
    rw [Edit.command, (⟨rfl, rfl, rfl⟩ : Holds ⟨.local, some b, none, files⟩ b).perform_apply w]
    exact ⟨rfl, rfl, rfl⟩
  | addSheet id name => exact ⟨b.addSheet id name, ⟨rfl, rfl, rfl⟩, b.names_addSheet id name⟩
  | defineName n => exact ⟨b.defineName n, ⟨rfl, rfl, rfl⟩, b.names_defineName n⟩
  | addTable t =>
    have h : (Edit.addTable t).command.perform ⟨.local, some b, none, files⟩ =
        StoreM.perform (do setCurrent (← (b.addTable t : Except _ _)) : StoreM Unit)
          ⟨.local, some b, none, files⟩ := rfl
    rw [h]
    cases hadd : b.addTable t with
    | error e => exact ⟨b, ⟨rfl, rfl, rfl⟩, rfl⟩
    | ok b' => exact ⟨b', ⟨rfl, rfl, rfl⟩, Workbook.names_of_addTable hadd⟩

/-- After any edits the workbook has the latest name of each text. -/
theorem exists_holds_edited (old : Option Workbook) (files : FileTree) (edits : List Edit) :
    ∃ b, (edited old files edits).Holds b ∧
      b.names = latest DefinedName.name (edits.filterMap Edit.defined?) := by
  induction edits using List.reverseRecOn with
  | nil => exact ⟨.blank, ⟨rfl, rfl, rfl⟩, rfl⟩
  | append_singleton edits e ih =>
    obtain ⟨b, hbook, hnames⟩ := ih
    obtain ⟨b', hbook', hnames'⟩ := hbook.edit e
    refine ⟨b', ?_, ?_⟩
    · rw [edited, List.foldl_concat]
      exact hbook'
    · rw [hnames', List.filterMap_append]
      cases hdefined : e.defined? with
      | none => simp [hdefined, hnames]
      | some n => simp [hdefined, hnames, latest_concat]

theorem Holds.perform_listNames {s : Store} {b : Workbook} (h : s.Holds b) :
    (listNames.perform s).1 = .ok b.names := by
  obtain ⟨kind, workbook, watch, files⟩ := s
  obtain ⟨rfl, rfl, rfl⟩ := h
  rfl

theorem Holds.perform_defineName {s : Store} {b : Workbook} (h : s.Holds b) (n : DefinedName) :
    ((defineName n).perform s).1 = .ok () := by
  obtain ⟨kind, workbook, watch, files⟩ := s
  obtain ⟨rfl, rfl, rfl⟩ := h
  rfl

/-- In a new workbook names can be defined at any time, whatever else is edited. The store lists the
last definition of each text, in the order of definition, and nothing else. Each of them is the last
one of its scope and text too. All of those are listed just if no text was defined in two scopes. -/
theorem listed_names (old : Option Workbook) (files : FileTree) (edits : List Edit) :
    let names := edits.filterMap Edit.defined?
    (∀ n, ((defineName n).perform (edited old files edits)).1 = .ok ()) ∧
    (listNames.perform (edited old files edits)).1 = .ok (latest DefinedName.name names) ∧
    (∀ n, n ∈ latest DefinedName.name names ↔
      names.findRev? (fun m => m.name = n.name) = some n) ∧
    (latest DefinedName.name names).Sublist (latest DefinedName.qualified names) ∧
    (latest DefinedName.name names = latest DefinedName.qualified names ↔
      ∀ m ∈ names, ∀ n ∈ names, m.name = n.name → m.sheet = n.sheet) := by
  intro names
  obtain ⟨b, hbook, hnames⟩ := exists_holds_edited old files edits
  refine ⟨hbook.perform_defineName, ?_, fun n => mem_latest_iff, ?_, ?_⟩
  · rw [hbook.perform_listNames, hnames]
  · exact latest_sublist_latest DefinedName.qualified Prod.snd names
  · refine (latest_eq_latest_iff DefinedName.qualified Prod.snd names).trans ?_
    constructor
    · intro h m hm n hn htext
      exact congrArg Prod.fst (h m hm n hn htext)
    · intro h m hm n hn htext
      exact Prod.ext (h m hm n hn htext) htext

/-- A name for all of a workbook. -/
def rate : DefinedName := { name := "Rate", refersTo := "Sheet1!$A$1" }

/-- A name for one sheet, of the same text. -/
def sheetRate : DefinedName :=
  { name := "Rate", refersTo := "Sheet1!$B$1", sheet := some defaultSheet }

/-- The name of a sheet takes the place of the name of the workbook, though they have different
scopes and are cached under different keys. -/
theorem sheet_name_replaces_workbook_name :
    (listNames.perform (edited none {} [.defineName rate, .defineName sheetRate])).1 =
      .ok [sheetRate] ∧
    latest DefinedName.qualified [rate, sheetRate] = [rate, sheetRate] ∧
    rate.key ≠ sheetRate.key := by
  refine ⟨rfl, by decide, by decide⟩

end Store

end SheetSync
