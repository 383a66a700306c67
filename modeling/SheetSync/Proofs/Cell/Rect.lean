import SheetSync.Cell.Rect
import Mathlib.Data.List.Basic
import Mathlib.Data.List.Nodup
/-!
Rectangles as sets of positions. The positions of a rectangle are listed once each, as many as its
area; a table over a rectangle gives one entry to each of them. `around?` covers what it is drawn
around, and chunks cover the rectangle that they are cut from, each no larger than its shape.
-/
namespace SheetSync.Rect

/-- The positions of a rectangle, row by row. -/
def positions (r : Rect) : List Position :=
  r.rowRange.flatMap fun row => r.colRange.map fun col => ⟨row, col⟩

theorem contains_iff {r : Rect} {p : Position} :
    r.contains p ↔ (r.top ≤ p.row ∧ p.row ≤ r.bottom) ∧ r.left ≤ p.col ∧ p.col ≤ r.right := by
  simp [contains]

theorem isValid_iff {r : Rect} : r.isValid ↔ r.top ≤ r.bottom ∧ r.left ≤ r.right := by
  simp [isValid]

theorem mem_rowRange {r : Rect} {n : Nat} : n ∈ r.rowRange ↔ r.top ≤ n ∧ n ≤ r.bottom := by
  simp only [rowRange, rows, List.mem_range'_1]
  omega

theorem mem_colRange {r : Rect} {n : Nat} : n ∈ r.colRange ↔ r.left ≤ n ∧ n ≤ r.right := by
  simp only [colRange, cols, List.mem_range'_1]
  omega

theorem mem_positions {r : Rect} {p : Position} : p ∈ r.positions ↔ r.contains p := by
  obtain ⟨row, col⟩ := p
  simp [positions, mem_rowRange, mem_colRange, contains_iff]

theorem length_positions (r : Rect) : r.positions.length = r.area := by
  simp [positions, area, rowRange, colRange]

/-! ## Tables -/

theorem zip_map_self {α β : Type} (f : α → β) (l : List α) :
    l.zip (l.map f) = l.map fun a => (a, f a) := by
  induction l with
  | nil => rfl
  | cons a l ih => simp [ih]

theorem entries_grid {α : Type} (r : Rect) (f : Position → α) :
    r.entries (r.grid f) = r.positions.map fun p => (p, f p) := by
  simp only [entries, grid, positions, zip_map_self, List.flatMap_map, List.map_flatMap,
    List.map_map, Function.comp_def]

theorem length_grid {α : Type} (r : Rect) (f : Position → α) : (r.grid f).length = r.rows := by
  simp [grid, rowRange]

theorem length_of_mem_grid {α : Type} {r : Rect} {f : Position → α} {line : List α}
    (h : line ∈ r.grid f) : line.length = r.cols := by
  obtain ⟨row, -, rfl⟩ := List.mem_map.mp h
  simp [colRange]

theorem mem_flatten_grid {α : Type} {r : Rect} {f : Position → α} {a : α} :
    a ∈ (r.grid f).flatten ↔ ∃ p, r.contains p ∧ f p = a := by
  have hgrid : (r.grid f).flatten = r.positions.map f := by
    simp [grid, positions, List.flatMap, List.map_flatten, Function.comp_def]
  rw [hgrid, List.mem_map]
  simp only [mem_positions]

/-- The entry of a table for a position of the rectangle that it is laid over. -/
def entry? {α : Type} (r : Rect) (table : List (List α)) (p : Position) : Option α :=
  if r.contains p then table[p.row - r.top]?.bind fun cells => cells[p.col - r.left]? else none

theorem entry?_grid {α : Type} (r : Rect) (f : Position → α) (p : Position) :
    r.entry? (r.grid f) p = if r.contains p then some (f p) else none := by
  unfold entry?
  split
  · next h =>
    obtain ⟨row, col⟩ := p
    rw [contains_iff] at h
    dsimp only at h ⊢
    have hrow : row - r.top < r.rows := by
      unfold rows
      omega
    have hcol : col - r.left < r.cols := by
      unfold cols
      omega
    have hrow' : r.top + (row - r.top) = row := by omega
    have hcol' : r.left + (col - r.left) = col := by omega
    simp [grid, rowRange, colRange, hrow, hcol, hrow', hcol']
  · rfl

/-- A table of the rectangle's shape has an entry for each position. -/
theorem eq_grid_entry? {α : Type} {r : Rect} {table : List (List α)} (hrows : table.length = r.rows)
    (hcols : ∀ line ∈ table, line.length = r.cols) (f : Position → α) :
    table = r.grid fun p => (r.entry? table p).getD (f p) := by
  apply List.ext_getElem (by rw [hrows, length_grid])
  intro i hi hi'
  have hline := hcols _ (List.getElem_mem hi)
  apply List.ext_getElem (by rw [hline, length_of_mem_grid (List.getElem_mem hi')])
  intro j hj hj'
  have hin : r.contains ⟨r.top + i, r.left + j⟩ := by
    rw [hrows] at hi
    rw [hline] at hj
    unfold rows at hi
    unfold cols at hj
    rw [contains_iff]
    dsimp only
    omega
  simp [grid, rowRange, colRange, entry?, hin, hi, hj]

/-! ## The rectangle around positions -/

theorem contains_union_left {r s : Rect} {p : Position} (h : r.contains p) :
    (r.union s).contains p := by
  simp only [contains_iff, union] at h ⊢
  omega

theorem contains_union_right {r s : Rect} {p : Position} (h : s.contains p) :
    (r.union s).contains p := by
  simp only [contains_iff, union] at h ⊢
  omega

theorem contains_cell (p : Position) : (cell p).contains p := by
  simp [contains_iff, cell]

/-- Of all rectangles that contain some positions, the one with the innermost bounds. -/
structure IsAround (r : Rect) (P : Position → Prop) : Prop where
  contains : ∀ p, P p → r.contains p
  least : ∀ s : Rect, (∀ p, P p → s.contains p) →
    (s.top ≤ r.top ∧ r.bottom ≤ s.bottom) ∧ s.left ≤ r.left ∧ r.right ≤ s.right

theorem isAround_cell (p : Position) : (cell p).IsAround (· = p) where
  contains _ h := h ▸ contains_cell p
  least _ hs := contains_iff.mp (hs p rfl)

theorem IsAround.union {r s : Rect} {P Q : Position → Prop} (hr : r.IsAround P)
    (hs : s.IsAround Q) : (r.union s).IsAround fun p => P p ∨ Q p where
  contains p h := by
    rcases h with h | h
    · exact contains_union_left (hr.contains p h)
    · exact contains_union_right (hs.contains p h)
  least t ht := by
    have hP := hr.least t fun p h => ht p (.inl h)
    have hQ := hs.least t fun p h => ht p (.inr h)
    simp only [Rect.union]
    omega

theorem IsAround.congr {r : Rect} {P Q : Position → Prop} (h : r.IsAround P)
    (hPQ : ∀ p, P p ↔ Q p) : r.IsAround Q := (funext fun p => propext (hPQ p) : P = Q) ▸ h

theorem IsAround.unique {r s : Rect} {P : Position → Prop} (hr : r.IsAround P)
    (hs : s.IsAround P) : r = s := by
  have hle := hr.least s hs.contains
  have hge := hs.least r hr.contains
  obtain ⟨top, left, bottom, right⟩ := r
  rw [Rect.mk.injEq]
  dsimp only at hle hge
  omega

theorem isAround_foldl_union (ps : List Position) {r : Rect} {P : Position → Prop}
    (h : r.IsAround P) :
    (ps.foldl (fun r q => r.union (cell q)) r).IsAround fun p => P p ∨ p ∈ ps := by
  induction ps generalizing r P with
  | nil => simpa using h
  | cons q ps ih =>
    rw [List.foldl_cons]
    refine (ih (h.union (isAround_cell q))).congr fun p => ?_
    rw [List.mem_cons, or_assoc]

theorem isAround_of_around? {ps : List Position} {r : Rect} (h : around? ps = some r) :
    r.IsAround (· ∈ ps) := by
  cases ps with
  | nil => cases h
  | cons q ps =>
    obtain rfl := Option.some.inj h
    exact (isAround_foldl_union ps (isAround_cell q)).congr fun p => List.mem_cons.symm

theorem contains_of_around? {ps : List Position} {r : Rect} (hr : around? ps = some r)
    {p : Position} (hp : p ∈ ps) : r.contains p := (isAround_of_around? hr).contains p hp

theorem around?_eq_none {ps : List Position} : around? ps = none ↔ ps = [] := by
  cases ps <;> simp [around?]

theorem isValid_of_contains {r : Rect} {p : Position} (h : r.contains p) : r.isValid := by
  rw [contains_iff] at h
  rw [isValid_iff]
  omega

/-! ## Chunks -/

/-- A number between two bounds lies in one of their spans. -/
theorem exists_mem_spans {lo hi n : Nat} (size : Nat) (hlo : lo ≤ n) (hhi : n ≤ hi) :
    ∃ a b, (a, b) ∈ spans lo hi size ∧ a ≤ n ∧ n ≤ b := by
  simp only [spans, List.mem_map, List.mem_range, Prod.mk.injEq]
  have hpos : 0 < max size 1 := by omega
  generalize max size 1 = size' at hpos ⊢
  -- the span that it lies in is found by division
  refine ⟨_, _, ⟨(n - lo) / size', ?_, rfl, rfl⟩, ?_, ?_⟩
  · rw [Nat.div_lt_iff_lt_mul hpos]
    calc n - lo < hi + 1 - lo := by omega
      _ ≤ (hi + 1 - lo + (size' - 1)) / size' * size' := by
        have := Nat.div_add_mod (hi + 1 - lo + (size' - 1)) size'
        have := Nat.mod_lt (hi + 1 - lo + (size' - 1)) hpos
        rw [Nat.mul_comm]
        omega
  · have := Nat.div_mul_le_self (n - lo) size'
    omega
  · have := Nat.div_add_mod (n - lo) size'
    have := Nat.mod_lt (n - lo) hpos
    rw [Nat.mul_comm]
    omega

/-- A span is not empty, holds at most `size` numbers, and lies between the bounds. -/
theorem span_bounds {lo hi size a b : Nat} (h : (a, b) ∈ spans lo hi size) :
    lo ≤ a ∧ a ≤ b ∧ b ≤ hi ∧ b + 1 - a ≤ max size 1 := by
  simp only [spans, List.mem_map, List.mem_range, Prod.mk.injEq] at h
  have hpos : 0 < max size 1 := by omega
  generalize max size 1 = size' at hpos h ⊢
  obtain ⟨i, hi', rfl, rfl⟩ := h
  have hle : i * size' + size' ≤ hi + 1 - lo + (size' - 1) := by
    calc i * size' + size' = (i + 1) * size' := by rw [Nat.succ_mul]
      _ ≤ (hi + 1 - lo + (size' - 1)) / size' * size' := Nat.mul_le_mul_right _ hi'
      _ ≤ hi + 1 - lo + (size' - 1) := Nat.div_mul_le_self ..
  omega

/-- The first span starts at the lower bound. -/
theorem exists_spans_eq_cons {lo hi : Nat} (size : Nat) (hle : lo ≤ hi) :
    ∃ rest, spans lo hi size = (lo, min (lo + (max size 1 - 1)) hi) :: rest := by
  simp only [spans]
  have hpos : 0 < max size 1 := by omega
  generalize max size 1 = size' at hpos ⊢
  have hone : 0 < (hi + 1 - lo + (size' - 1)) / size' := Nat.div_pos (by omega) hpos
  obtain ⟨n, hn⟩ := Nat.exists_eq_add_one_of_ne_zero (Nat.ne_of_gt hone)
  rw [hn, List.range_succ_eq_map, List.map_cons, Nat.zero_mul, Nat.add_zero]
  exact ⟨_, rfl⟩

theorem exists_chunk_contains {r : Rect} {p : Position} (rows cols : Nat) (h : r.contains p) :
    ∃ c ∈ r.chunks rows cols, c.contains p := by
  rw [contains_iff] at h
  obtain ⟨top, bottom, hrow, hr⟩ := exists_mem_spans rows h.1.1 h.1.2
  obtain ⟨left, right, hcol, hc⟩ := exists_mem_spans cols h.2.1 h.2.2
  refine ⟨⟨top, left, bottom, right⟩, ?_, contains_iff.mpr ⟨hr, hc⟩⟩
  exact List.mem_flatMap.mpr ⟨_, hrow, List.mem_map.mpr ⟨_, hcol, rfl⟩⟩

theorem chunk_bounds {r c : Rect} {rows cols : Nat} (h : c ∈ r.chunks rows cols) :
    c.isValid ∧ c.area ≤ max rows 1 * max cols 1 := by
  obtain ⟨⟨top, bottom⟩, hrow, h⟩ := List.mem_flatMap.mp h
  obtain ⟨⟨left, right⟩, hcol, rfl⟩ := List.mem_map.mp h
  have hr := span_bounds hrow
  have hc := span_bounds hcol
  refine ⟨isValid_iff.mpr ⟨hr.2.1, hc.2.1⟩, ?_⟩
  exact Nat.mul_le_mul hr.2.2.2 hc.2.2.2

/-- The first chunk starts in the corner and is as large as a chunk and the rectangle can be. -/
theorem exists_chunks_eq_cons {r : Rect} (h : r.isValid) (rows cols : Nat) :
    ∃ c rest, r.chunks rows cols = c :: rest ∧ c.isValid ∧
      c.area = min (max rows 1) r.rows * min (max cols 1) r.cols := by
  obtain ⟨hrow, hcol⟩ := isValid_iff.mp h
  obtain ⟨spans, hspans⟩ := exists_spans_eq_cons rows hrow
  obtain ⟨spans', hspans'⟩ := exists_spans_eq_cons cols hcol
  rw [chunks, hspans, hspans']
  refine ⟨_, _, rfl, ?_, ?_⟩
  · rw [isValid_iff]
    simp only
    omega
  · simp only [area, Rect.rows, Rect.cols]
    congr 1 <;> omega

/-! ## Rectangles drawn around positions -/

theorem around?_concat {ps : List Position} {r : Rect} (h : around? ps = some r) (p : Position) :
    around? (ps ++ [p]) = some (r.union (cell p)) := by
  cases ps with
  | nil => cases h
  | cons q ps =>
    obtain rfl := Option.some.inj h
    simp [around?, List.foldl_append]

/-- The rectangle around the first positions of a column. -/
theorem around?_column (n : Nat) :
    around? ((List.range (n + 1)).map fun i => (⟨i, 0⟩ : Position)) = some ⟨0, 0, n, 0⟩ := by
  induction n with
  | zero => rfl
  | succ n ih =>
    rw [List.range_succ, List.map_append, List.map_singleton, around?_concat ih]
    simp [union, cell]

end SheetSync.Rect
