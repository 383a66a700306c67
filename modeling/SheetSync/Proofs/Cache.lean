import SheetSync.Cache
import SheetSync.Proofs.Keyed
/-!
Caches against what was done with them. A cache serves the signature of its last reset, with what
was given last for each key since then, and refuses every other signature; what it refused leaves no
trace. Entries may as well be kept under signature and key at once, in a map that somebody else
provides. Such a map has to find what was inserted last, and nothing from before it was cleared, or
else a signature that comes back would find the entries of its former time: `SignedCache.Agrees`.

Main statement: `ScopedCache.answers_from_history`.
-/
namespace SheetSync

namespace ScopedCache

variable {α : Type} {c : ScopedCache α} {s : Signature}

/-- Whether who comes with a signature gets nothing out of a cache and nothing into it. -/
structure Refuses (c : ScopedCache α) (s : Signature) : Prop where
  get? : ∀ key, c.get? s key = none
  merge : ∀ entries, c.merge s entries = .error ⟨c.scope, s⟩

theorem refuses_of_ne (h : c.scope ≠ some s) : c.Refuses s where
  get? key := if_neg (by simp [isCurrent, h])
  merge entries := if_neg (by simp [isCurrent, h])

theorem merge_of_scope (h : c.scope = some s) (entries : List (String × α)) :
    c.merge s entries = .ok (entries.length, { c with entries := putAll entries c.entries }) :=
  if_pos (by simp [isCurrent, h])

theorem get?_of_scope (h : c.scope = some s) (key : String) :
    c.get? s key = c.entries.get? key := if_pos (by simp [isCurrent, h])

theorem putAll_append (entries entries' : List (String × α)) (m : Keyed α) :
    putAll (entries ++ entries') m = putAll entries' (putAll entries m) := List.foldl_append

/-! ## Histories -/

/-- What is done with a cache. -/
inductive Action (α : Type) where
  | reset (s : Signature) (seed : List (String × α))
  | merge (s : Signature) (entries : List (String × α))
  | get (s : Signature) (key : String)

namespace Action

def isReset : Action α → Bool
  | reset _ _ => true
  | _ => false

/-- What a merge adds, if it comes with a signature. -/
def added (s : Signature) : Action α → List (String × α)
  | merge s' entries => if s' = s then entries else []
  | _ => []

end Action

/-- The cache after an action. -/
def act (c : ScopedCache α) : Action α → ScopedCache α
  | .reset s seed => c.reset s seed
  | .merge s entries =>
    match c.merge s entries with
    | .ok (_, merged) => merged
    | .error _ => c
  | .get _ _ => c

/-- A new cache after some actions, one after the other. -/
def after (as : List (Action α)) : ScopedCache α := as.foldl act {}

/-- Whether the last reset among some actions was to a signature, and these entries were given under
the signature since then, in this order: by the seed, and by the merges that came after it. -/
def GivenSince (as : List (Action α)) (s : Signature) (given : List (String × α)) : Prop :=
  ∃ before seed later, as = before ++ .reset s seed :: later ∧ (∀ a ∈ later, a.isReset = false) ∧
    given = seed ++ later.flatMap (·.added s)

theorem act_merge_of_ne (h : c.scope ≠ some s) (entries : List (String × α)) :
    c.act (.merge s entries) = c := by
  rw [act, (refuses_of_ne h).merge]

theorem act_of_scope (h : c.scope = some s) {a : Action α} (ha : a.isReset = false) :
    c.act a = ⟨some s, putAll (a.added s) c.entries⟩ := by
  have hc : c = ⟨some s, c.entries⟩ := by rw [← h]
  cases a with
  | reset s' seed => cases ha
  | get s' key => exact hc
  | merge s' entries =>
    by_cases hs : s' = s
    · subst hs
      simp [act, merge_of_scope h, Action.added, h]
    · have hne : c.scope ≠ some s' := by
        rw [h]
        exact fun heq => hs (Option.some.inj heq).symm
      rw [act_merge_of_ne hne, Action.added, if_neg hs]
      exact hc

theorem act_of_unscoped (h : c.scope = none) {a : Action α} (ha : a.isReset = false) :
    c.act a = c := by
  cases a with
  | reset s seed => cases ha
  | get s key => rfl
  | merge s entries => exact act_merge_of_ne (by simp [h]) entries

theorem after_concat (as : List (Action α)) (a : Action α) :
    after (as ++ [a]) = (after as).act a := by
  simp [after, List.foldl_append]

/-- Merges and lookups after a reset add to what its seed gave. -/
theorem foldl_act_of_scope {given : List (String × α)} {later : List (Action α)}
    (h : ∀ a ∈ later, a.isReset = false) :
    later.foldl act ⟨some s, putAll given []⟩ =
      ⟨some s, putAll (given ++ later.flatMap (·.added s)) []⟩ := by
  induction later generalizing given with
  | nil => simp
  | cons a later ih =>
    obtain ⟨ha, hlater⟩ := List.forall_mem_cons.mp h
    rw [List.foldl_cons, act_of_scope rfl ha, ← putAll_append, ih hlater, List.flatMap_cons,
      List.append_assoc]

namespace GivenSince

variable {as : List (Action α)} {given : List (String × α)}

theorem after_eq (h : GivenSince as s given) : after as = ⟨some s, putAll given []⟩ := by
  obtain ⟨before, seed, later, rfl, hlater, rfl⟩ := h
  rw [after, List.foldl_append, List.foldl_cons]
  exact foldl_act_of_scope hlater

theorem concat (h : GivenSince as s given) {a : Action α} (ha : a.isReset = false) :
    GivenSince (as ++ [a]) s (given ++ a.added s) := by
  obtain ⟨before, seed, later, rfl, hlater, rfl⟩ := h
  refine ⟨before, seed, later ++ [a], by simp, ?_, by simp⟩
  intro b hb
  rcases List.mem_append.mp hb with hb | hb
  · exact hlater b hb
  · rw [List.mem_singleton.mp hb]
    exact ha

end GivenSince

/-- A cache was not yet reset, or something was given since its last reset. -/
theorem after_cases (as : List (Action α)) :
    after as = {} ∨ ∃ s given, GivenSince as s given := by
  induction as using List.reverseRecOn with
  | nil => exact .inl rfl
  | append_singleton as a ih =>
    cases ha : a.isReset with
    | true =>
      cases a with
      | reset s seed => exact .inr ⟨s, seed, as, seed, [], rfl, by simp, by simp⟩
      | merge => cases ha
      | get => cases ha
    | false =>
      rcases ih with hnone | ⟨s, given, h⟩
      · left
        rw [after_concat, hnone, act_of_unscoped rfl ha]
      · exact .inr ⟨s, _, h.concat ha⟩

theorem scope_after_iff (as : List (Action α)) (s : Signature) :
    (after as).scope = some s ↔ ∃ given, GivenSince as s given := by
  constructor
  · intro hscope
    rcases after_cases as with hnone | ⟨s', given, h⟩
    · rw [hnone] at hscope
      cases hscope
    · rw [h.after_eq] at hscope
      cases hscope
      exact ⟨given, h⟩
  · rintro ⟨given, h⟩
    rw [h.after_eq]

theorem get?_after_iff (as : List (Action α)) (s : Signature) (key : String) (a : α) :
    (after as).get? s key = some a ↔
      ∃ given, GivenSince as s given ∧ (given.findRev? (·.1 = key)).map Prod.snd = some a := by
  have hfound : ∀ {given}, GivenSince as s given →
      (after as).get? s key = (given.findRev? (·.1 = key)).map Prod.snd := by
    intro given h
    rw [get?_of_scope ((scope_after_iff as s).mpr ⟨given, h⟩), h.after_eq]
    exact Keyed.get?_ofList given key
  constructor
  · intro hget
    by_cases hscope : (after as).scope = some s
    · obtain ⟨given, h⟩ := (scope_after_iff as s).mp hscope
      exact ⟨given, h, (hfound h).symm.trans hget⟩
    · rw [(refuses_of_ne hscope).get?] at hget
      cases hget
  · rintro ⟨given, h, hlast⟩
    exact (hfound h).trans hlast

end ScopedCache

/-! ## Entries by signature and key -/

/-- A map of entries by signature and key. -/
structure EntryMap (μ α : Type) where
  empty : μ
  insert : μ → Signature → String → α → μ
  clear : μ → μ
  get? : μ → Signature → String → Option α

/-- What caches rely on in a map of entries: that it finds what was inserted last, and nothing from
before it was cleared. -/
structure EntryMap.IsMap {μ α : Type} (M : EntryMap μ α) : Prop where
  get?_insert : ∀ m s key a s' key', M.get? (M.insert m s key a) s' key' =
    if s' = s ∧ key' = key then some a else M.get? m s' key'
  get?_clear : ∀ m s key, M.get? (M.clear m) s key = none

/-- A cache that keeps its entries under signature and key. -/
structure SignedCache (μ : Type) where
  scope : Option Signature
  entries : μ

namespace SignedCache

variable {μ α : Type} (M : EntryMap μ α)

def insertAll (s : Signature) (entries : List (String × α)) (m : μ) : μ :=
  entries.foldl (fun m e => M.insert m s e.1 e.2) m

def reset (c : SignedCache μ) (s : Signature) (seed : List (String × α)) : SignedCache μ :=
  ⟨some s, insertAll M s seed (M.clear c.entries)⟩

def get? (c : SignedCache μ) (s : Signature) (key : String) : Option α :=
  if c.scope = some s then M.get? c.entries s key else none

def merge (c : SignedCache μ) (s : Signature) (entries : List (String × α)) :
    Except SignatureMismatch (Nat × SignedCache μ) :=
  if c.scope = some s then
    .ok (entries.length, { c with entries := insertAll M s entries c.entries })
  else .error ⟨c.scope, s⟩

def act (c : SignedCache μ) : ScopedCache.Action α → SignedCache μ
  | .reset s seed => c.reset M s seed
  | .merge s entries =>
    match c.merge M s entries with
    | .ok (_, merged) => merged
    | .error _ => c
  | .get _ _ => c

/-- A new cache after some actions, one after the other. -/
def after (as : List (ScopedCache.Action α)) : SignedCache μ := as.foldl (act M) ⟨none, M.empty⟩

/-- Whether two caches answer alike, whatever they are asked and given. -/
structure Agrees (c : SignedCache μ) (d : ScopedCache α) : Prop where
  scope : c.scope = d.scope
  get? : ∀ s key, c.get? M s key = d.get? s key
  merge : ∀ s entries, (c.merge M s entries).map Prod.fst = (d.merge s entries).map Prod.fst

variable {M} {c : SignedCache μ} {d : ScopedCache α} {s : Signature}

theorem merge_of_scope (h : c.scope = some s) (entries : List (String × α)) :
    c.merge M s entries =
      .ok (entries.length, { c with entries := insertAll M s entries c.entries }) := if_pos h

theorem merge_of_ne (h : c.scope ≠ some s) (entries : List (String × α)) :
    c.merge M s entries = .error ⟨c.scope, s⟩ := if_neg h

/-- The entries of the signature in force are all that matters. -/
theorem agrees_iff : c.Agrees M d ↔
    c.scope = d.scope ∧ ∀ s, d.scope = some s → ∀ key, M.get? c.entries s key = d.entries.get? key := by
  constructor
  · intro h
    refine ⟨h.scope, fun s hs key => ?_⟩
    have hget := h.get? s key
    rw [ScopedCache.get?_of_scope hs] at hget
    rw [← hget, get?, if_pos (h.scope.trans hs)]
  · rintro ⟨hscope, hentries⟩
    refine ⟨hscope, fun s key => ?_, fun s entries => ?_⟩
    · by_cases hs : d.scope = some s
      · rw [get?, if_pos (hscope.trans hs), hentries s hs, ScopedCache.get?_of_scope hs]
      · rw [get?, if_neg (hscope ▸ hs), (ScopedCache.refuses_of_ne hs).get?]
    · by_cases hs : d.scope = some s
      · rw [merge_of_scope (hscope.trans hs), ScopedCache.merge_of_scope hs]
        rfl
      · rw [merge_of_ne (hscope ▸ hs), (ScopedCache.refuses_of_ne hs).merge, hscope]
        rfl

variable (hM : M.IsMap)
include hM

/-- Entries that are inserted under a signature are found by their keys alone. -/
theorem get?_insertAll {m : μ} {n : Keyed α}
    (h : ∀ key, M.get? m s key = n.get? key) (entries : List (String × α)) (key : String) :
    M.get? (insertAll M s entries m) s key = (ScopedCache.putAll entries n).get? key := by
  induction entries generalizing m n with
  | nil => exact h key
  | cons e entries ih =>
    refine ih (m := M.insert m s e.1 e.2) (n := n.set e.1 e.2) fun key' => ?_
    simp [hM.get?_insert, Keyed.get?_set, h]

/-- Caches agree once they are scoped anew, whatever they held under the signature before. -/
theorem agrees_reset (c : SignedCache μ) (d : ScopedCache α) (s : Signature)
    (seed : List (String × α)) : (c.reset M s seed).Agrees M (d.reset s seed) := by
  refine agrees_iff.mpr ⟨rfl, fun s' hs' key => ?_⟩
  obtain rfl := Option.some.inj hs'
  exact get?_insertAll hM (fun key => hM.get?_clear _ _ _) seed key

theorem Agrees.act (h : c.Agrees M d) (a : ScopedCache.Action α) :
    (c.act M a).Agrees M (d.act a) := by
  obtain ⟨hscope, hentries⟩ := agrees_iff.mp h
  cases a with
  | get s key => exact h
  | reset s seed => exact agrees_reset hM c d s seed
  | merge s entries =>
    by_cases hs : d.scope = some s
    · rw [SignedCache.act, merge_of_scope (hscope.trans hs), ScopedCache.act,
        ScopedCache.merge_of_scope hs]
      refine agrees_iff.mpr ⟨hscope, fun s' hs' key => ?_⟩
      obtain rfl := Option.some.inj (hs.symm.trans hs')
      exact get?_insertAll hM (hentries s hs) entries key
    · rw [SignedCache.act, merge_of_ne (hscope ▸ hs), ScopedCache.act_merge_of_ne hs]
      exact h

theorem agrees_after (as : List (ScopedCache.Action α)) :
    (after M as).Agrees M (ScopedCache.after as) := by
  have hstart : (⟨none, M.empty⟩ : SignedCache μ).Agrees M ({} : ScopedCache α) :=
    agrees_iff.mpr ⟨rfl, fun s hs => by cases hs⟩
  induction as using List.reverseRecOn with
  | nil => exact hstart
  | append_singleton as a ih =>
    rw [ScopedCache.after_concat, after, List.foldl_append]
    exact ih.act hM a

end SignedCache

namespace ScopedCache

variable {α : Type}

/-- Whatever was done with a cache, it has the signature of its last reset. Under that signature it
gives for a key what was given last since then, by the seed or by a merge, and under every other one
nothing. A merge is accepted just if it comes with that signature; one that is refused is told both
signatures, and everything later is as if it had not been tried. A cache that keeps its entries
under signature and key at once, in any map that can be relied on, answers the same. -/
theorem answers_from_history {μ : Type} {M : EntryMap μ α} (hM : M.IsMap)
    (as : List (Action α)) :
    (∀ s, (after as).scope = some s ↔ ∃ given, GivenSince as s given) ∧
    (∀ s key a, (after as).get? s key = some a ↔
      ∃ given, GivenSince as s given ∧ (given.findRev? (·.1 = key)).map Prod.snd = some a) ∧
    (∀ s entries,
      ((after as).scope = some s →
        ∃ merged, (after as).merge s entries = .ok (entries.length, merged)) ∧
      ((after as).scope ≠ some s → (after as).merge s entries = .error ⟨(after as).scope, s⟩ ∧
        ∀ later, after (as ++ .merge s entries :: later) = after (as ++ later))) ∧
    (SignedCache.after M as).Agrees M (after as) := by
  refine ⟨scope_after_iff as, get?_after_iff as, fun s entries => ⟨fun hs => ?_, fun hs => ?_⟩,
    SignedCache.agrees_after hM as⟩
  · exact ⟨_, merge_of_scope hs entries⟩
  · refine ⟨(refuses_of_ne hs).merge entries, fun later => ?_⟩
    simp only [after, List.foldl_append, List.foldl_cons]
    exact congrArg (later.foldl act) (act_merge_of_ne hs entries)

/-- A map that is cleared by hiding what it holds: each entry bears the number of clearings that
came before it. -/
structure Epochs (α : Type) where
  now : Nat
  entries : List (Nat × (Signature × String) × α)
  le_now : ∀ e ∈ entries, e.1 ≤ now

namespace Epochs

def map : EntryMap (Epochs α) α where
  empty := ⟨0, [], List.forall_mem_nil _⟩
  insert m s key a :=
    ⟨m.now, (m.now, (s, key), a) :: m.entries, List.forall_mem_cons.mpr ⟨Nat.le_refl _, m.le_now⟩⟩
  clear m := ⟨m.now + 1, m.entries, fun e he => Nat.le_succ_of_le (m.le_now e he)⟩
  get? m s key := (m.entries.find? fun e => e.1 = m.now ∧ e.2.1 = (s, key)).map (·.2.2)

theorem isMap : (map : EntryMap (Epochs α) α).IsMap where
  get?_insert m s key a s' key' := by
    by_cases h : s' = s ∧ key' = key
    · simp [map, h]
    · have hne : ¬ (s = s' ∧ key = key') := fun heq => h ⟨heq.1.symm, heq.2.symm⟩
      simp [map, h, hne]
  get?_clear m s key := by
    refine Option.map_eq_none_iff.mpr (List.find?_eq_none.mpr fun e he => ?_)
    have hlt : e.1 < m.now + 1 := Nat.lt_succ_of_le (m.le_now e he)
    simp [map, Nat.ne_of_lt hlt]

end Epochs

/-- A signature that comes back after another one, under which a merge was tried too late. -/
def comeback : List (Action Nat) :=
  [.reset ⟨"a"⟩ [("k", 1)], .reset ⟨"b"⟩ [], .merge ⟨"a"⟩ [("k", 2)], .reset ⟨"a"⟩ [("m", 3)],
    .merge ⟨"a"⟩ [("m", 4), ("m", 5)], .get ⟨"a"⟩ "m"]

theorem answers_from_history_comeback : (Epochs.map : EntryMap (Epochs Nat) Nat).IsMap ∧
    GivenSince comeback ⟨"a"⟩ [("m", 3), ("m", 4), ("m", 5)] ∧
    (SignedCache.after Epochs.map comeback).get? Epochs.map ⟨"a"⟩ "m" = some 5 ∧
    (SignedCache.after Epochs.map comeback).get? Epochs.map ⟨"a"⟩ "k" = none := by
  have hgiven : GivenSince comeback ⟨"a"⟩ [("m", 3), ("m", 4), ("m", 5)] :=
    ⟨comeback.take 3, [("m", 3)], comeback.drop 4, rfl, by decide, by decide⟩
  obtain ⟨-, hget, -, hagrees⟩ := answers_from_history Epochs.isMap comeback
  refine ⟨Epochs.isMap, hgiven, ?_, ?_⟩
  · rw [hagrees.get?]
    exact (hget ⟨"a"⟩ "m" 5).mpr ⟨_, hgiven, rfl⟩
  · rw [hagrees.get?]
    decide

end ScopedCache

end SheetSync
