/-!
Lists of pairs with one entry for a key, in the order in which the keys first came. Setting a key
that is there keeps its place.
-/
namespace SheetSync

/-- Entries by name, in the order of their first appearance. -/
abbrev Keyed (α : Type) := List (String × α)

namespace Keyed

variable {α β : Type}

def get? (key : String) (m : Keyed α) : Option α := m.lookup key

def has (key : String) (m : Keyed α) : Bool := (get? key m).isSome

def keys (m : Keyed α) : List String := m.map Prod.fst

def set (key : String) (a : α) : Keyed α → Keyed α
  | [] => [(key, a)]
  | (k, b) :: rest => if key = k then (key, a) :: rest else (k, b) :: set key a rest

def erase (key : String) (m : Keyed α) : Keyed α := m.filter (·.1 ≠ key)

/-- The entries given, the last one of a key counting at the place of the first. -/
def ofList (entries : List (String × α)) : Keyed α :=
  entries.foldl (fun m e => set e.1 e.2 m) []

@[simp] theorem get?_nil (key : String) : get? key ([] : Keyed α) = none := rfl

theorem get?_cons (key k : String) (a : α) (m : Keyed α) :
    get? key ((k, a) :: m) = if key = k then some a else get? key m := by
  by_cases h : key = k
  · simp [get?, h]
  · have hb : (key == k) = false := by simp [h]
    simp [get?, List.lookup_cons, hb, h]

theorem get?_set (key k : String) (a : α) (m : Keyed α) :
    get? key (set k a m) = if key = k then some a else get? key m := by
  induction m with
  | nil => simp [set, get?_cons]
  | cons e rest ih =>
    obtain ⟨j, b⟩ := e
    by_cases hk : k = j
    · by_cases h : key = k <;> simp_all [set, get?_cons]
    · by_cases h : key = j
      · have : ¬ key = k := fun h' => hk (h' ▸ h)
        simp [set, hk, get?_cons, h, Ne.symm hk]
      · simp [set, hk, get?_cons, h, ih]

theorem keys_set (k : String) (a : α) (m : Keyed α) :
    keys (set k a m) = if k ∈ keys m then keys m else keys m ++ [k] := by
  induction m with
  | nil => simp [set, keys]
  | cons e rest ih =>
    obtain ⟨j, b⟩ := e
    by_cases hk : k = j
    · simp [set, keys, hk]
    · by_cases hr : k ∈ keys rest
      · simp_all [set, keys]
      · simp_all [set, keys]

end Keyed

end SheetSync
