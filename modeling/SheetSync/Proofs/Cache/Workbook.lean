import SheetSync.Proofs.Cache
/-!
The caches of a workbook, one for its names and one for its tables. To add to them is to merge names
and then tables, and if the second merge were refused, what the first one added would stay. But the
two caches are scoped together only, so they have one signature at all times, and both merges are
accepted or none.

Main statement: `WorkbookCaches.filled_together`.
-/
namespace SheetSync

namespace ScopedCache

variable {α : Type} {c : ScopedCache α} {s : Signature}

theorem scope_act_merge (c : ScopedCache α) (s : Signature) (entries : List (String × α)) :
    (c.act (.merge s entries)).scope = c.scope := by
  by_cases h : c.scope = some s
  · rw [act, merge_of_scope h]
  · rw [act_merge_of_ne h]

/-- What a cache serves after a merge that it accepted. -/
theorem get?_act_merge (h : c.scope = some s) (entries : List (String × α)) (s' : Signature)
    (key : String) : (c.act (.merge s entries)).get? s' key =
      if s' = s then ((entries.findRev? (·.1 = key)).map Prod.snd).or (c.get? s key)
      else c.get? s' key := by
  by_cases hs : s' = s
  · subst hs
    have hscope : (c.act (.merge s' entries)).scope = some s' := by rw [scope_act_merge, h]
    rw [if_pos rfl, get?_of_scope hscope, get?_of_scope h, act, merge_of_scope h]
    exact Keyed.get?_setAll entries c.entries key
  · have hne : c.scope ≠ some s' := by
      rw [h]
      intro heq
      exact hs (Option.some.inj heq).symm
    have hne' : (c.act (.merge s entries)).scope ≠ some s' := by rwa [scope_act_merge]
    rw [if_neg hs, (refuses_of_ne hne').get?, (refuses_of_ne hne).get?]

end ScopedCache

namespace WorkbookCaches

variable {c : WorkbookCaches} {s : Signature} {names : List DefinedName} {tables : List Table}

/-- Names as they are cached. -/
def nameEntries (names : List DefinedName) : List (String × DefinedName) :=
  names.map fun n => (n.key, n)

/-- Tables as they are cached. -/
def tableEntries (tables : List Table) : List (String × Table) := tables.map fun t => (t.name, t)

/-! ## One addition -/

theorem populate_of_scope (hnames : c.names.scope = some s) (htables : c.tables.scope = some s)
    (names : List DefinedName) (tables : List Table) :
    c.populate s names tables =
      (⟨c.names.act (.merge s (nameEntries names)), c.tables.act (.merge s (tableEntries tables))⟩,
        .ok (names.length, tables.length)) := by
  simp [populate, ScopedCache.act, nameEntries, tableEntries, ScopedCache.merge_of_scope hnames,
    ScopedCache.merge_of_scope htables]

theorem populate_of_ne (h : c.names.scope ≠ some s) (names : List DefinedName)
    (tables : List Table) : c.populate s names tables = (c, .error ⟨c.names.scope, s⟩) := by
  simp [populate, (ScopedCache.refuses_of_ne h).merge]

/-- What caches serve after names and tables were added under a signature: for the keys of those the
last one offered, and for all others what they served before. -/
structure Filled (s : Signature) (names : List DefinedName) (tables : List Table)
    (c c' : WorkbookCaches) : Prop where
  name : ∀ key n, names.findRev? (·.key = key) = some n → c'.names.get? s key = some n
  table : ∀ key t, tables.findRev? (·.name = key) = some t → c'.tables.get? s key = some t
  otherNames : ∀ s' key, (s' = s → ∀ n ∈ names, n.key ≠ key) →
    c'.names.get? s' key = c.names.get? s' key
  otherTables : ∀ s' key, (s' = s → ∀ t ∈ tables, t.name ≠ key) →
    c'.tables.get? s' key = c.tables.get? s' key

theorem findRev?_nameEntries (names : List DefinedName) (key : String) :
    ((nameEntries names).findRev? (·.1 = key)).map Prod.snd = names.findRev? (·.key = key) :=
  (Keyed.findRev?_map_eq DefinedName.key id names key).trans Option.map_id_apply

theorem findRev?_tableEntries (tables : List Table) (key : String) :
    ((tableEntries tables).findRev? (·.1 = key)).map Prod.snd = tables.findRev? (·.name = key) :=
  (Keyed.findRev?_map_eq Table.name id tables key).trans Option.map_id_apply

theorem filled_populate (hnames : c.names.scope = some s) (htables : c.tables.scope = some s)
    (names : List DefinedName) (tables : List Table) :
    Filled s names tables c (c.populate s names tables).1 := by
  rw [populate_of_scope hnames htables]
  have hname := ScopedCache.get?_act_merge hnames (nameEntries names)
  have htable := ScopedCache.get?_act_merge htables (tableEntries tables)
  constructor
  · intro key n hn
    rw [hname, if_pos rfl, findRev?_nameEntries, hn, Option.some_or]
  · intro key t ht
    rw [htable, if_pos rfl, findRev?_tableEntries, ht, Option.some_or]
  · intro s' key h
    rw [hname]
    by_cases hs : s' = s
    · have hnone : names.findRev? (·.key = key) = none := Keyed.findRev?_eq_none (by simpa using h hs)
      rw [if_pos hs, findRev?_nameEntries, hnone, Option.none_or, hs]
    · rw [if_neg hs]
  · intro s' key h
    rw [htable]
    by_cases hs : s' = s
    · have hnone : tables.findRev? (·.name = key) = none := Keyed.findRev?_eq_none (by simpa using h hs)
      rw [if_pos hs, findRev?_tableEntries, hnone, Option.none_or, hs]
    · rw [if_neg hs]

/-! ## Histories -/

/-- What is done with the caches of a workbook. -/
inductive Action where
  | reset (s : Signature)
  | populate (s : Signature) (names : List DefinedName) (tables : List Table)
deriving DecidableEq

/-- The signature that an action scopes the caches to. -/
def Action.scope? : Action → Option Signature
  | reset s => some s
  | populate _ _ _ => none

/-- The signature of the last reset, if there was one. -/
def lastScope? (as : List Action) : Option Signature := (as.filterMap Action.scope?).getLast?

/-- The caches after an action. -/
def act (c : WorkbookCaches) : Action → WorkbookCaches
  | .reset s => c.reset s
  | .populate s names tables => (c.populate s names tables).1

/-- New caches after some actions, one after the other. -/
def after (as : List Action) : WorkbookCaches := as.foldl act {}

theorem after_concat (as : List Action) (a : Action) : after (as ++ [a]) = (after as).act a :=
  List.foldl_concat ..

/-- Both caches have the signature of the last reset. -/
theorem scopes_after (as : List Action) :
    (after as).names.scope = lastScope? as ∧ (after as).tables.scope = lastScope? as := by
  induction as using List.reverseRecOn with
  | nil => exact ⟨rfl, rfl⟩
  | append_singleton as a ih =>
    obtain ⟨hnames, htables⟩ := ih
    rw [after_concat]
    cases a with
    | reset s => simp [act, reset, ScopedCache.reset, lastScope?, Action.scope?]
    | populate s names tables =>
      have hlast : lastScope? (as ++ [.populate s names tables]) = lastScope? as := by
        simp [lastScope?, Action.scope?]
      rw [hlast, act]
      by_cases hs : lastScope? as = some s
      · rw [populate_of_scope (hnames.trans hs) (htables.trans hs)]
        simp [ScopedCache.scope_act_merge, hnames, htables]
      · rw [populate_of_ne (by rwa [hnames])]
        exact ⟨hnames, htables⟩

end WorkbookCaches

/-! ## Entries by signature and key -/

/-- The caches of a workbook, each of which keeps its entries under signature and key. -/
structure SignedCaches (μ ν : Type) where
  names : SignedCache μ
  tables : SignedCache ν

namespace SignedCaches

open WorkbookCaches (nameEntries tableEntries)

variable {μ ν : Type} (M : EntryMap μ DefinedName) (N : EntryMap ν Table)

def reset (c : SignedCaches μ ν) (s : Signature) : SignedCaches μ ν :=
  ⟨c.names.reset M s [], c.tables.reset N s []⟩

/-- Adds names and then tables. A refusal keeps what is already added. -/
def populate (c : SignedCaches μ ν) (s : Signature) (names : List DefinedName)
    (tables : List Table) : SignedCaches μ ν × Except SignatureMismatch (Nat × Nat) :=
  match c.names.merge M s (nameEntries names) with
  | .error e => (c, .error e)
  | .ok (n, merged) =>
    let c := { c with names := merged }
    match c.tables.merge N s (tableEntries tables) with
    | .error e => (c, .error e)
    | .ok (m, merged) => ({ c with tables := merged }, .ok (n, m))

def act (c : SignedCaches μ ν) : WorkbookCaches.Action → SignedCaches μ ν
  | .reset s => c.reset M N s
  | .populate s names tables => (c.populate M N s names tables).1

/-- New caches after some actions, one after the other. -/
def after (as : List WorkbookCaches.Action) : SignedCaches μ ν :=
  as.foldl (act M N) ⟨⟨none, M.empty⟩, ⟨none, N.empty⟩⟩

/-- Whether caches answer alike, whatever they are asked and given. -/
structure Agrees (c : SignedCaches μ ν) (d : WorkbookCaches) : Prop where
  names : c.names.Agrees M d.names
  tables : c.tables.Agrees N d.tables
  populate : ∀ s names tables,
    (c.populate M N s names tables).2 = (d.populate s names tables).2

variable {M N} {c : SignedCaches μ ν} {d : WorkbookCaches} {s : Signature}

theorem populate_of_scope (hnames : c.names.scope = some s) (htables : c.tables.scope = some s)
    (names : List DefinedName) (tables : List Table) :
    c.populate M N s names tables =
      (⟨c.names.act M (.merge s (nameEntries names)),
        c.tables.act N (.merge s (tableEntries tables))⟩, .ok (names.length, tables.length)) := by
  simp [populate, SignedCache.act, SignedCache.merge_of_scope hnames,
    SignedCache.merge_of_scope htables, nameEntries, tableEntries]

theorem populate_of_ne (h : c.names.scope ≠ some s) (names : List DefinedName)
    (tables : List Table) :
    c.populate M N s names tables = (c, .error ⟨c.names.scope, s⟩) := by
  simp [populate, SignedCache.merge_of_ne h]

/-- Caches that agree one by one agree in what they say to additions, if they are scoped
together. -/
theorem agrees_of_each (hscope : d.tables.scope = d.names.scope)
    (hnames : c.names.Agrees M d.names) (htables : c.tables.Agrees N d.tables) :
    c.Agrees M N d := by
  refine ⟨hnames, htables, ?_⟩
  intro s names tables
  by_cases hs : d.names.scope = some s
  · have hs' : d.tables.scope = some s := hscope.trans hs
    rw [populate_of_scope (hnames.scope.trans hs) (htables.scope.trans hs'),
      WorkbookCaches.populate_of_scope hs hs']
  · rw [populate_of_ne (hnames.scope ▸ hs), WorkbookCaches.populate_of_ne hs, hnames.scope]

variable (hM : M.IsMap) (hN : N.IsMap)
include hM hN

theorem Agrees.act (h : c.Agrees M N d) (hscope : d.tables.scope = d.names.scope)
    (a : WorkbookCaches.Action) :
    (c.act M N a).names.Agrees M (d.act a).names ∧
      (c.act M N a).tables.Agrees N (d.act a).tables := by
  cases a with
  | reset s => exact ⟨h.names.act hM (.reset s []), h.tables.act hN (.reset s [])⟩
  | populate s names tables =>
    simp only [SignedCaches.act, WorkbookCaches.act]
    by_cases hs : d.names.scope = some s
    · have hs' : d.tables.scope = some s := hscope.trans hs
      rw [populate_of_scope (h.names.scope.trans hs) (h.tables.scope.trans hs'),
        WorkbookCaches.populate_of_scope hs hs']
      exact ⟨h.names.act hM (.merge s (nameEntries names)),
        h.tables.act hN (.merge s (tableEntries tables))⟩
    · rw [populate_of_ne (h.names.scope ▸ hs), WorkbookCaches.populate_of_ne hs]
      exact ⟨h.names, h.tables⟩

theorem agrees_reset (c : SignedCaches μ ν) (d : WorkbookCaches) (s : Signature) :
    (c.act M N (.reset s)).Agrees M N (d.reset s) :=
  agrees_of_each rfl (c.names.agrees_reset hM d.names s []) (c.tables.agrees_reset hN d.tables s [])

/-- Caches that are scoped anew and then filled agree, whatever they held before. -/
theorem agrees_refilled (c : SignedCaches μ ν) (d : WorkbookCaches) (s : Signature)
    (names : List DefinedName) (tables : List Table) :
    ((c.act M N (.reset s)).act M N (.populate s names tables)).Agrees M N
      ((d.reset s).populate s names tables).1 := by
  obtain ⟨hnames, htables⟩ :=
    (agrees_reset hM hN c d s).act hM hN rfl (.populate s names tables)
  refine agrees_of_each ?_ hnames htables
  rw [WorkbookCaches.populate_of_scope rfl rfl, ScopedCache.scope_act_merge,
    ScopedCache.scope_act_merge]
  rfl

theorem agrees_after (as : List WorkbookCaches.Action) :
    (after M N as).Agrees M N (WorkbookCaches.after as) := by
  have hscope : ∀ as, (WorkbookCaches.after as).tables.scope =
      (WorkbookCaches.after as).names.scope := by
    intro as
    obtain ⟨hnames, htables⟩ := WorkbookCaches.scopes_after as
    rw [hnames, htables]
  induction as using List.reverseRecOn with
  | nil =>
    exact agrees_of_each rfl (SignedCache.agrees_after hM []) (SignedCache.agrees_after hN [])
  | append_singleton as a ih =>
    obtain ⟨hnames, htables⟩ := ih.act hM hN (hscope as) a
    rw [← WorkbookCaches.after_concat] at hnames htables
    have hafter : after M N (as ++ [a]) = (after M N as).act M N a := List.foldl_concat ..
    rw [← hafter] at hnames htables
    exact agrees_of_each (hscope _) hnames htables

end SignedCaches

namespace WorkbookCaches

open ScopedCache (Epochs)

/-- Whatever the caches of a workbook were reset to and filled with, both have the signature of the
last reset. Names and tables that come with it are taken, all of them, and counted: the last one
offered for a key is served from then on, and everything else as before. Names and tables that come
with another signature are refused, all of them, and the caches stay as they are. Caches that keep
their entries under signature and key, in any maps that can be relied on, do the same. -/
theorem filled_together {μ ν : Type} {M : EntryMap μ DefinedName} {N : EntryMap ν Table}
    (hM : M.IsMap) (hN : N.IsMap) (as : List Action) :
    ((after as).names.scope = lastScope? as ∧ (after as).tables.scope = lastScope? as) ∧
    (∀ s names tables,
      (lastScope? as = some s → ∃ c', (after as).populate s names tables =
        (c', .ok (names.length, tables.length)) ∧ Filled s names tables (after as) c') ∧
      (lastScope? as ≠ some s → (after as).populate s names tables =
        (after as, .error ⟨lastScope? as, s⟩))) ∧
    (SignedCaches.after M N as).Agrees M N (after as) := by
  obtain ⟨hnames, htables⟩ := scopes_after as
  refine ⟨⟨hnames, htables⟩, ?_, SignedCaches.agrees_after hM hN as⟩
  intro s names tables
  constructor
  · intro hs
    have hfilled := filled_populate (hnames.trans hs) (htables.trans hs) names tables
    rw [populate_of_scope (hnames.trans hs) (htables.trans hs)] at hfilled ⊢
    exact ⟨_, rfl, hfilled⟩
  · intro hs
    rw [← hnames] at hs ⊢
    exact populate_of_ne hs names tables

/-- Caches that are filled for one workbook and scoped to the next, for which a name is offered
twice, when names of the first one come in late. -/
def lateFilling : List Action :=
  [.reset ⟨"a"⟩,
    .populate ⟨"a"⟩ [{ name := "Rate", refersTo := "A1" }]
      [{ name := "Sales", sheet := "S", rect := ⟨0, 0, 1, 1⟩ }],
    .reset ⟨"b"⟩,
    .populate ⟨"b"⟩ [{ name := "Rate", refersTo := "B1" }, { name := "Rate", refersTo := "B2" }] [],
    .populate ⟨"a"⟩ [{ name := "Rate", refersTo := "A2" }] []]

theorem filled_together_late :
    (Epochs.map : EntryMap (Epochs DefinedName) DefinedName).IsMap ∧
    (Epochs.map : EntryMap (Epochs Table) Table).IsMap ∧
    lastScope? lateFilling = some ⟨"b"⟩ ∧
    (after lateFilling).populate ⟨"a"⟩ [] [] = (after lateFilling, .error ⟨some ⟨"b"⟩, ⟨"a"⟩⟩) ∧
    (SignedCaches.after Epochs.map Epochs.map lateFilling).names.get? Epochs.map ⟨"b"⟩ "Rate" =
      some { name := "Rate", refersTo := "B2" } ∧
    (SignedCaches.after Epochs.map Epochs.map lateFilling).tables.get? Epochs.map ⟨"a"⟩ "Sales" =
      none := by
  obtain ⟨-, hpopulate, hagrees⟩ := filled_together Epochs.isMap Epochs.isMap lateFilling
  refine ⟨Epochs.isMap, Epochs.isMap, by decide, ?_, ?_, ?_⟩
  · exact (hpopulate ⟨"a"⟩ [] []).2 (by decide)
  · rw [hagrees.names.get?]
    decide
  · rw [hagrees.tables.get?]
    decide

end WorkbookCaches

end SheetSync
