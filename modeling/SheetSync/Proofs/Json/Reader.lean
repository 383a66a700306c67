import SheetSync.Json.Reader
import SheetSync.Json.Record
/-!
What readers give. Integers of a tree that was read are within 64 bits, since a literal past them
stands for a binary number. A list is read from a tree if its items are.
-/
namespace SheetSync.Json

/-- Trees whose integers are within 64 bits. -/
inductive IsBounded : Json → Prop where
  | null : IsBounded .null
  | bool (b : Bool) : IsBounded (.bool b)
  | int {n : Int} (lo : -Int.pow 2 63 ≤ n) (hi : n < Int.pow 2 64) : IsBounded (.int n)
  | float (x : Double) : IsBounded (.float x)
  | str (s : String) : IsBounded (.str s)
  | arr {items : List Json} (h : ∀ x ∈ items, IsBounded x) : IsBounded (.arr items)
  | obj {members : List (String × Json)} (h : ∀ m ∈ members, IsBounded m.2) :
    IsBounded (.obj members)
  | faulty : IsBounded .faulty

theorem Literal.isBounded_value (x : Literal) : x.value.IsBounded := by
  have hpow : Int.pow 2 63 = 9223372036854775808 := by decide
  have hpow' : Int.pow 2 64 = 18446744073709551616 := by decide
  have hnat : Nat.pow 2 63 = 9223372036854775808 := by decide
  have hnat' : Nat.pow 2 64 = 18446744073709551616 := by decide
  simp only [value]
  by_cases hpos : (x.isInteger && !x.negative && decide (natOfDigits x.whole < Nat.pow 2 64)) = true
  · rw [if_pos hpos]
    simp only [Bool.and_eq_true, decide_eq_true_eq] at hpos
    exact .int (by omega) (by omega)
  rw [if_neg hpos]
  by_cases hneg : (x.isInteger && x.negative && decide (0 < natOfDigits x.whole) &&
      decide (natOfDigits x.whole ≤ Nat.pow 2 63)) = true
  · rw [if_pos hneg]
    simp only [Bool.and_eq_true, decide_eq_true_eq] at hneg
    exact .int (by omega) (by omega)
  rw [if_neg hneg]
  cases x.float? with
  | none => exact .faulty
  | some y => exact .float _

/-- What comes of a list item by item comes of its items. -/
theorem exists_of_mem_mapM {α β : Type} {f : α → Option β} {xs : List α} {ys : List β}
    (h : xs.mapM f = some ys) {y : β} (hy : y ∈ ys) : ∃ x ∈ xs, f x = some y := by
  induction xs generalizing ys with
  | nil =>
    obtain rfl : [] = ys := Option.some.inj h
    cases hy
  | cons x xs ih =>
    rw [List.mapM_cons] at h
    simp only [Option.bind_eq_bind, Option.bind_eq_some_iff] at h
    obtain ⟨z, hz, zs, hzs, h⟩ := h
    obtain rfl : z :: zs = ys := Option.some.inj h
    rcases List.mem_cons.mp hy with rfl | hy
    · exact ⟨x, List.mem_cons_self, hz⟩
    · obtain ⟨w, hw, hwy⟩ := ih hzs hy
      exact ⟨w, List.mem_cons_of_mem x hw, hwy⟩

theorem isBounded_object {members : List (Option String × Json)}
    (h : ∀ m ∈ members, m.2.IsBounded) : (object members).IsBounded := by
  unfold object
  split
  · next ms hms =>
    refine .obj fun m hm => ?_
    -- each member of the object is one of those that were read
    obtain ⟨n, hn, hnm⟩ := exists_of_mem_mapM hms hm
    obtain ⟨key, -, rfl⟩ := Option.map_eq_some_iff.mp hnm
    exact h n hn
  · exact .faulty

/-- Whether whatever is read with some fuel is bounded. -/
structure BoundedReaders (flaw : Option Char) (fuel : Nat) : Prop where
  value : ∀ {cs x rest}, value? flaw fuel cs = some (x, rest) → x.IsBounded
  items : ∀ {cs xs rest}, items? flaw fuel cs = some (xs, rest) → ∀ x ∈ xs, x.IsBounded
  members : ∀ {cs ms rest}, members? flaw fuel cs = some (ms, rest) → ∀ m ∈ ms, m.2.IsBounded

namespace BoundedReaders

variable {flaw : Option Char} {fuel : Nat} {cs rest : List Char}

theorem value_succ (h : BoundedReaders flaw fuel) {x : Json}
    (hread : value? flaw (fuel + 1) cs = some (x, rest)) : x.IsBounded := by
  rw [value?] at hread
  split at hread
  · cases hread
    exact .null
  · cases hread
    exact .bool true
  · cases hread
    exact .bool false
  · simp only [Option.bind_eq_bind, Option.bind_eq_some_iff] at hread
    obtain ⟨⟨s, r⟩, -, hread⟩ := hread
    cases hread
    cases s
    · exact .faulty
    · exact .str _
  · split at hread
    · cases hread
      exact .arr (by simp)
    · simp only [Option.bind_eq_bind, Option.bind_eq_some_iff] at hread
      obtain ⟨⟨xs, r⟩, hxs, hread⟩ := hread
      cases hread
      exact .arr (h.items hxs)
  · split at hread
    · cases hread
      exact .obj (by simp)
    · simp only [Option.bind_eq_bind, Option.bind_eq_some_iff] at hread
      obtain ⟨⟨ms, r⟩, hms, hread⟩ := hread
      cases hread
      exact isBounded_object (h.members hms)
  · simp only [Option.bind_eq_bind, Option.bind_eq_some_iff] at hread
    obtain ⟨⟨l, r⟩, -, hread⟩ := hread
    cases hread
    exact l.isBounded_value

theorem items_succ (h : BoundedReaders flaw fuel) {xs : List Json}
    (hread : items? flaw (fuel + 1) cs = some (xs, rest)) : ∀ x ∈ xs, x.IsBounded := by
  rw [items?] at hread
  simp only [Option.bind_eq_bind, Option.bind_eq_some_iff] at hread
  obtain ⟨⟨x, r⟩, hx, hread⟩ := hread
  split at hread
  · obtain ⟨⟨ys, r'⟩, hys, hread⟩ := Option.bind_eq_some_iff.mp hread
    cases hread
    exact List.forall_mem_cons.mpr ⟨h.value hx, h.items hys⟩
  · cases hread
    exact List.forall_mem_singleton.mpr (h.value hx)
  · cases hread

theorem members_succ (h : BoundedReaders flaw fuel) {ms : List (Option String × Json)}
    (hread : members? flaw (fuel + 1) cs = some (ms, rest)) : ∀ m ∈ ms, m.2.IsBounded := by
  rw [members?] at hread
  split at hread
  · simp only [Option.bind_eq_bind, Option.bind_eq_some_iff] at hread
    obtain ⟨⟨key, r⟩, -, hread⟩ := hread
    split at hread
    · obtain ⟨⟨x, r'⟩, hx, hread⟩ := Option.bind_eq_some_iff.mp hread
      split at hread
      · obtain ⟨⟨ys, r''⟩, hys, hread⟩ := Option.bind_eq_some_iff.mp hread
        cases hread
        exact List.forall_mem_cons.mpr ⟨h.value hx, h.members hys⟩
      · cases hread
        exact List.forall_mem_singleton.mpr (h.value hx)
      · cases hread
    · cases hread
  · cases hread

end BoundedReaders

theorem boundedReaders (flaw : Option Char) (fuel : Nat) : BoundedReaders flaw fuel := by
  induction fuel with
  | zero =>
    constructor
    · intro cs x rest hread
      simp [value?] at hread
    · intro cs xs rest hread
      simp [items?] at hread
    · intro cs ms rest hread
      simp [members?] at hread
  | succ fuel ih => exact ⟨ih.value_succ, ih.items_succ, ih.members_succ⟩

theorem isBounded_of_read? {cs : List Char} {flaw : Option Char} {x : Json}
    (h : read? cs flaw = some x) : x.IsBounded := by
  simp only [read?, Option.bind_eq_bind, Option.bind_eq_some_iff] at h
  obtain ⟨⟨y, rest⟩, hy, h⟩ := h
  split at h
  · cases h
    exact (boundedReaders flaw _).value hy
  · cases h

/-! ## Parts of a tree -/

namespace Record

/-- Whether the fields of a record are bounded. -/
def IsBounded (r : Record) : Prop := ∀ e ∈ r.slots, e.2.IsBounded

theorem isBounded_of_record? {fields : List String} {x : Json} (hx : x.IsBounded) {r : Record}
    (h : record? fields x = some r) : r.IsBounded := by
  intro e he
  cases hx with
  | @arr items hitems =>
    simp only [record?] at h
    split at h
    · obtain rfl := Option.some.inj h
      exact hitems e.2 (List.of_mem_zip he).2
    · cases h
  | @obj members hmembers =>
    simp only [record?] at h
    split at h
    · obtain rfl := Option.some.inj h
      exact hmembers e (List.mem_filter.mp he).1
    · cases h
  | _ => cases h

variable {α : Type} {r : Record} {field : String} {item : Decoder α} {a : α}

theorem mem_slots_of_lookup {slots : List (String × Json)} {x : Json}
    (h : slots.lookup field = some x) : (field, x) ∈ slots := by
  induction slots with
  | nil => cases h
  | cons e slots ih =>
    obtain ⟨k, y⟩ := e
    rw [List.lookup_cons] at h
    by_cases hk : field = k
    · subst hk
      obtain rfl : y = x := by simpa using h
      exact List.mem_cons_self
    · rw [beq_false_of_ne hk] at h
      exact List.mem_cons_of_mem _ (ih h)

/-- A field that is read is read from a part of the record. -/
theorem IsBounded.exists_of_required (hr : r.IsBounded) (h : r.required field item = some a) :
    ∃ x : Json, x.IsBounded ∧ item x = some a := by
  simp only [required, Option.bind_eq_bind, Option.bind_eq_some_iff] at h
  obtain ⟨x, hx, hitem⟩ := h
  exact ⟨x, hr _ (mem_slots_of_lookup hx), hitem⟩

theorem IsBounded.exists_of_orElse (hr : r.IsBounded) {default : α}
    (h : r.orElse field default item = some a) :
    a = default ∨ ∃ x : Json, x.IsBounded ∧ item x = some a := by
  unfold orElse at h
  split at h
  · next x hx => exact .inr ⟨x, hr _ (mem_slots_of_lookup hx), h⟩
  · exact .inl (Option.some.inj h).symm

end Record

/-- An item of a list that is read is read from a part of the tree. -/
theorem IsBounded.exists_of_list {α : Type} {item : Decoder α} {x : Json} (hx : x.IsBounded)
    {as : List α} (h : Decoder.list item x = some as) {a : α} (ha : a ∈ as) :
    ∃ y : Json, y.IsBounded ∧ item y = some a := by
  cases hx with
  | @arr items hitems =>
    obtain ⟨y, hy, hya⟩ := exists_of_mem_mapM h ha
    exact ⟨y, hitems y hy, hya⟩
  | _ => cases h

/-! ## How deep trees nest -/

mutual

/-- How deep arrays and objects nest in a tree. -/
def depth : Json → Nat
  | .arr items => depthItems items + 1
  | .obj members => depthMembers members + 1
  | _ => 0

def depthItems : List Json → Nat
  | [] => 0
  | x :: xs => max (depth x) (depthItems xs)

def depthMembers : List (String × Json) → Nat
  | [] => 0
  | (_, x) :: ms => max (depth x) (depthMembers ms)

end

theorem depth_lt_arr {items : List Json} {x : Json} (hx : x ∈ items) :
    x.depth < (arr items).depth := by
  have hle : x.depth ≤ depthItems items := by
    induction items with
    | nil => cases hx
    | cons y ys ih =>
      rw [depthItems]
      rcases List.mem_cons.mp hx with rfl | hx
      · exact Nat.le_max_left _ _
      · exact Nat.le_trans (ih hx) (Nat.le_max_right _ _)
  rw [depth]
  omega

theorem depth_lt_obj {members : List (String × Json)} {m : String × Json} (hm : m ∈ members) :
    m.2.depth < (obj members).depth := by
  have hle : m.2.depth ≤ depthMembers members := by
    induction members with
    | nil => cases hm
    | cons n ns ih =>
      rw [depthMembers]
      rcases List.mem_cons.mp hm with rfl | hm
      · exact Nat.le_max_left _ _
      · exact Nat.le_trans (ih hm) (Nat.le_max_right _ _)
  rw [depth]
  omega

theorem depth_lt_list {α : Type} {f : α → Json} {xs : List α} {x : α} (hx : x ∈ xs) :
    (f x).depth < (list f xs).depth := depth_lt_arr (List.mem_map_of_mem hx)

/-! ## Items one by one -/

theorem mapM_map_eq_some {α β : Type} {f : α → Option β} {g : β → α} {xs : List β}
    (h : ∀ x ∈ xs, f (g x) = some x) : (xs.map g).mapM f = some xs := by
  induction xs with
  | nil => rfl
  | cons x xs ih =>
    rw [List.map_cons, List.mapM_cons, h x List.mem_cons_self,
      ih fun y hy => h y (List.mem_cons_of_mem x hy)]
    rfl

/-- A list is read from its tree if its items are. -/
theorem decode_list {α : Type} {item : Decoder α} {f : α → Json} {xs : List α}
    (h : ∀ x ∈ xs, item (f x) = some x) : Decoder.list item (list f xs) = some xs :=
  mapM_map_eq_some h

end SheetSync.Json
