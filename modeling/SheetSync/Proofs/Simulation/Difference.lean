import SheetSync.Proofs.Document.Snapshots
import SheetSync.Simulation.Difference
import SheetSync.Store.Basic
/-!
The search for the first place at which two copies of content differ. A copy that was taken of
sheets whose ids differ has the cells that the sheets show, and no others. Main statements:
`firstDifference?_eq_none_iff`, by which the search finds nothing only where nothing differs, and
`isFirst_firstDifference?`, by which what it finds stands before every other difference.
-/
namespace SheetSync.Simulation

/-! ## What a copy has -/

/-- The cells that a sheet of a copy adds to those of other sheets of its id. -/
theorem get?_contents_concat (sheets : List SheetSnapshot) (t : SheetSnapshot) (id : String) :
    (contents ⟨sheets ++ [t]⟩).get? id =
      if id = t.id then
        some (t.cells.foldl (fun cells c => cells.insert c.position c.state)
          (((contents ⟨sheets⟩).get? t.id).getD ∅))
      else (contents ⟨sheets⟩).get? id := by
  rw [contents, List.foldl_concat, Keyed.get?_set]
  rfl

theorem get?_contents_concat_of_ne (sheets : List SheetSnapshot) {t : SheetSnapshot} {id : String}
    (h : id ≠ t.id) : (contents ⟨sheets ++ [t]⟩).get? id = (contents ⟨sheets⟩).get? id := by
  rw [get?_contents_concat, if_neg h]

theorem get?_contents_eq_none {sheets : List SheetSnapshot} {id : String}
    (h : id ∉ sheets.map (·.id)) : (contents ⟨sheets⟩).get? id = none := by
  induction sheets using List.reverseRecOn with
  | nil => rfl
  | append_singleton sheets t ih =>
    rw [List.map_append, List.mem_append, not_or] at h
    rw [get?_contents_concat_of_ne _ (by simpa using h.2), ih h.1]

theorem get?_contents_concat_self {sheets : List SheetSnapshot} {t : SheetSnapshot}
    (h : t.id ∉ sheets.map (·.id)) :
    (contents ⟨sheets ++ [t]⟩).get? t.id =
      some (ByPosition.ofEntries (t.cells.map fun c => (c.position, c.state))) := by
  rw [get?_contents_concat, if_pos rfl, get?_contents_eq_none h, ByPosition.ofEntries,
    List.foldl_map]
  rfl

/-- The cells of a sheet's copy are those that it shows. -/
theorem getElem?_ofEntries_snapshot (s : Sheet) (id : String) (p : Position) :
    (ByPosition.ofEntries ((s.snapshot id).cells.map fun c => (c.position, c.state)))[p]? =
      (s.read p).stored? := by
  refine Option.ext fun c => ?_
  rw [ByPosition.getElem?_ofEntries_of_nodup (s.isCanonical_snapshot id).nodup_positions,
    List.mem_map]
  constructor
  · rintro ⟨d, hd, heq⟩
    obtain ⟨rfl, rfl⟩ := Prod.mk.inj heq
    obtain ⟨hcell, hstate⟩ := Sheet.mem_cells_snapshot.mp hd
    rw [Sheet.read, hcell, Option.getD_some, CellState.stored?, hstate]
    rfl
  · intro hc
    have hstate := CellState.isEmpty_of_stored? hc
    have hread : s.read p = c := by
      rw [CellState.stored?] at hc
      split at hc
      · cases hc
      · exact Option.some.inj hc
    exact ⟨⟨p.row, p.col, c⟩,
      Sheet.mem_cells_snapshot.mpr ⟨(Sheet.read_eq_iff hstate).mp hread, hstate⟩, rfl⟩

theorem get?_contents_copies {sheets : Keyed Sheet} (h : (Keyed.keys sheets).Nodup) (id : String) :
    (contents ⟨sheets.map fun e => e.2.snapshot e.1⟩).get? id =
      (Keyed.get? id sheets).map fun s =>
        ByPosition.ofEntries ((s.snapshot id).cells.map fun c => (c.position, c.state)) := by
  induction sheets using List.reverseRecOn with
  | nil => rfl
  | append_singleton sheets e ih =>
    obtain ⟨k, s⟩ := e
    rw [Keyed.keys, List.map_append, List.nodup_append] at h
    obtain ⟨hnodup, -, hne⟩ := h
    have hk : k ∉ Keyed.keys sheets := fun hk => hne k hk k (by simp) rfl
    have hids : ((sheets.map fun e => e.2.snapshot e.1).map (·.id)) = Keyed.keys sheets := by
      rw [List.map_map]
      rfl
    rw [← Keyed.set_of_not_mem hk, Keyed.get?_set, Keyed.set_of_not_mem hk, List.map_append,
      List.map_singleton]
    by_cases hid : id = k
    · subst hid
      rw [if_pos rfl]
      exact get?_contents_concat_self (t := s.snapshot id) (by rw [hids]; exact hk)
    · rw [if_neg hid, ← ih hnodup]
      exact get?_contents_concat_of_ne _ (t := s.snapshot k) hid

/-- A copy of sheets whose ids differ has what the sheets show. -/
theorem stateAt_contents {sheets : Keyed Sheet} (h : (Keyed.keys sheets).Nodup) (id : String)
    (p : Position) :
    stateAt (contents ⟨sheets.map fun e => e.2.snapshot e.1⟩) id p =
      (Keyed.get? id sheets).bind fun s => (s.read p).stored? := by
  rw [stateAt, get?_contents_copies h]
  cases Keyed.get? id sheets with
  | none => rfl
  | some s => exact getElem?_ofEntries_snapshot s id p

/-! ## The search -/

/-- Of two places the first one, by sheet, then by row, then by column. -/
def Precedes (x y : String × Position) : Prop :=
  x.1 < y.1 ∨ x.1 = y.1 ∧ (x.2.row < y.2.row ∨ x.2.row = y.2.row ∧ x.2.col < y.2.col)

/-- The first of all places at which two contents differ. -/
structure IsFirst (f g : String → Position → Option CellState) (x : String × Position) : Prop where
  differs : f x.1 x.2 ≠ g x.1 x.2
  least : ∀ y : String × Position, f y.1 y.2 ≠ g y.1 y.2 → y = x ∨ Precedes x y

/-- What is found first in a list that is in order comes from the first item from which anything
does. -/
theorem exists_first_of_findSome? {α β : Type} {R : α → α → Prop} {l : List α} (hl : l.Pairwise R)
    {f : α → Option β} {b : β} (h : l.findSome? f = some b) :
    ∃ a ∈ l, f a = some b ∧ ∀ c ∈ l, f c ≠ none → c = a ∨ R a c := by
  obtain ⟨before, a, after, rfl, hab, hbefore⟩ := List.findSome?_eq_some_iff.mp h
  refine ⟨a, by simp, hab, ?_⟩
  intro c hc hfound
  rw [List.pairwise_append, List.pairwise_cons] at hl
  rcases List.mem_append.mp hc with hc | hc
  · exact absurd (hbefore c hc) hfound
  · exact (List.mem_cons.mp hc).imp id (hl.2.1.1 c)

variable {a b : Contents}

theorem mem_positions {c : Contents} {sheet : String} {p : Position} :
    p ∈ positions c sheet ↔ stateAt c sheet p ≠ none := by
  unfold positions stateAt
  cases c.get? sheet with
  | none => simp
  | some cells =>
    show p ∈ cells.keys ↔ cells[p]? ≠ none
    rw [Std.ExtTreeMap.mem_keys, Std.ExtTreeMap.mem_iff_isSome_getElem?, Option.ne_none_iff_isSome]

theorem pairwise_positions (c : Contents) (sheet : String) :
    (positions c sheet).Pairwise fun p q => (compare p q).isLE := by
  unfold positions
  cases c.get? sheet with
  | none => exact .nil
  | some cells =>
    exact Std.ExtTreeMap.ordered_keys.imp fun h => by rw [h]; rfl

theorem mem_keys_of_stateAt {c : Contents} {sheet : String} {p : Position}
    (h : stateAt c sheet p ≠ none) : sheet ∈ Keyed.keys c := by
  by_contra hsheet
  rw [stateAt, Keyed.get?_eq_none_iff.mpr hsheet] at h
  exact h rfl

/-- The places of both contents on a sheet, in order. -/
def places (a b : Contents) (sheet : String) : List Position :=
  (positions a sheet).merge (positions b sheet) fun p q => (compare p q).isLE

/-- The first place on a sheet at which contents differ. -/
def firstOn? (a b : Contents) (sheet : String) : Option (String × Position) :=
  ((places a b sheet).find? fun p => stateAt a sheet p ≠ stateAt b sheet p).map (sheet, ·)

theorem mem_places_of_ne {sheet : String} {p : Position}
    (h : stateAt a sheet p ≠ stateAt b sheet p) : p ∈ places a b sheet := by
  rw [places, List.mem_merge, mem_positions, mem_positions]
  by_contra hnone
  rw [not_or, not_not, not_not] at hnone
  exact h (hnone.1.trans hnone.2.symm)

theorem pairwise_places (a b : Contents) (sheet : String) :
    (places a b sheet).Pairwise fun p q => (compare p q).isLE :=
  List.pairwise_merge (fun _ _ _ => Std.TransCmp.isLE_trans)
    (fun p q => by
      have hswap : compare q p = (compare p q).swap := Std.OrientedCmp.eq_swap
      rw [hswap]
      cases compare p q <;> rfl)
    _ _ (pairwise_positions a sheet) (pairwise_positions b sheet)

theorem firstOn?_eq_none_iff {sheet : String} :
    firstOn? a b sheet = none ↔ ∀ p, stateAt a sheet p = stateAt b sheet p := by
  rw [firstOn?, Option.map_eq_none_iff, List.find?_eq_none]
  constructor
  · intro h p
    by_contra hne
    exact h p (mem_places_of_ne hne) (by simpa using hne)
  · intro h p _
    simp [h p]

theorem exists_firstOn? {sheet : String} {x : String × Position}
    (h : firstOn? a b sheet = some x) :
    x.1 = sheet ∧ stateAt a sheet x.2 ≠ stateAt b sheet x.2 ∧
      ∀ p, stateAt a sheet p ≠ stateAt b sheet p → p = x.2 ∨ compare x.2 p = .lt := by
  obtain ⟨p, hp, rfl⟩ := Option.map_eq_some_iff.mp h
  refine ⟨rfl, by simpa using List.find?_some hp, ?_⟩
  rw [List.find?_eq_findSome?_guard] at hp
  obtain ⟨p', -, hp', hleast⟩ := exists_first_of_findSome? (pairwise_places a b sheet) hp
  obtain rfl : p' = p := (Option.guard_eq_some_iff.mp hp').1
  intro q hq
  rcases hleast q (mem_places_of_ne hq) (by simpa [Option.guard_eq_none_iff] using hq) with h | h
  · exact .inl h
  · cases hlt : compare p' q with
    | lt => exact .inr rfl
    | eq => exact .inl (Std.LawfulEqCmp.eq_of_compare hlt).symm
    | gt =>
      rw [hlt] at h
      cases h

/-- The search goes through the sheets of both contents in order. -/
theorem firstDifference?_eq (a b : Contents) :
    firstDifference? a b = ((a.keys ++ b.keys).mergeSort (· ≤ ·)).findSome? (firstOn? a b) := rfl

theorem mem_sheets_of_ne {sheet : String} {p : Position}
    (h : stateAt a sheet p ≠ stateAt b sheet p) :
    sheet ∈ (a.keys ++ b.keys).mergeSort (· ≤ ·) := by
  rw [List.mem_mergeSort, List.mem_append]
  rcases List.mem_merge.mp (mem_places_of_ne h) with hp | hp
  · exact .inl (mem_keys_of_stateAt (mem_positions.mp hp))
  · exact .inr (mem_keys_of_stateAt (mem_positions.mp hp))

theorem firstDifference?_eq_none_iff :
    firstDifference? a b = none ↔ ∀ sheet p, stateAt a sheet p = stateAt b sheet p := by
  rw [firstDifference?_eq, List.findSome?_eq_none_iff]
  constructor
  · intro h sheet p
    by_contra hne
    exact hne (firstOn?_eq_none_iff.mp (h sheet (mem_sheets_of_ne hne)) p)
  · intro h sheet _
    exact firstOn?_eq_none_iff.mpr (h sheet)

theorem isFirst_firstDifference? {x : String × Position} (h : firstDifference? a b = some x) :
    IsFirst (stateAt a) (stateAt b) x := by
  rw [firstDifference?_eq] at h
  have hsorted : ((a.keys ++ b.keys).mergeSort (· ≤ ·)).Pairwise fun s t => decide (s ≤ t) :=
    List.pairwise_mergeSort (fun _ _ _ => by simpa using String.le_trans)
      (fun s t => by simpa using String.le_total s t) _
  obtain ⟨sheet, -, hx, hleast⟩ := exists_first_of_findSome? hsorted h
  obtain ⟨rfl, hdiffers, hon⟩ := exists_firstOn? hx
  refine ⟨hdiffers, ?_⟩
  rintro ⟨sheet, p⟩ hne
  have hfound : firstOn? a b sheet ≠ none := fun hnone => hne (firstOn?_eq_none_iff.mp hnone p)
  by_cases hsame : sheet = x.1
  · subst hsame
    rcases hon p hne with rfl | hlt
    · exact .inl rfl
    · exact .inr (.inr ⟨rfl, Position.compare_eq_lt.mp hlt⟩)
  · have hle := (hleast sheet (mem_sheets_of_ne hne) hfound).resolve_left hsame
    refine .inr (.inl ?_)
    rw [← String.not_le]
    intro hge
    exact hsame (String.le_antisymm hge (of_decide_eq_true hle))

end SheetSync.Simulation
