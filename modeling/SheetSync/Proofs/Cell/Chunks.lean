import SheetSync.Proofs.Cell.Rect
import Mathlib.Algebra.Order.Floor.Div
import Mathlib.Algebra.BigOperators.Ring.List
/-!
Chunks partition the rectangle that they are cut from, and two nested loops over 32-bit words cut
it into the same ones. A word has no successor after the greatest one, so the loops clip the end of
each piece and stop where it has no next word; what they list is `Rect.chunks` of the same bounds.

Main statement: `isTiling_wordChunks`.
-/
namespace SheetSync

namespace Rect

/-! ## Pieces of a range, one after the other -/

theorem spans_eq_nil {lo hi : Nat} (size : Nat) (h : hi < lo) : spans lo hi size = [] := by
  have hpos : 0 < max size 1 := by omega
  have hzero : (hi + 1 - lo + (max size 1 - 1)) / max size 1 = 0 := Nat.div_eq_of_lt (by omega)
  simp only [spans, hzero, List.range_zero, List.map_nil]

/-- The first piece ends with the range or `size` numbers on, and the others are the pieces of what
comes after it. -/
theorem spans_eq_cons {lo hi : Nat} (size : Nat) (h : lo ≤ hi) :
    spans lo hi size = (lo, min (lo + (max size 1 - 1)) hi) ::
      spans (min (lo + (max size 1 - 1)) hi + 1) hi size := by
  simp only [spans]
  have hpos : 0 < max size 1 := by omega
  generalize max size 1 = size' at hpos ⊢
  have hcount : (hi + 1 - lo + (size' - 1)) / size' =
      (hi + 1 - (min (lo + (size' - 1)) hi + 1) + (size' - 1)) / size' + 1 := by
    by_cases hlast : lo + (size' - 1) ≤ hi
    · rw [← Nat.add_div_right _ hpos]
      congr 1
      omega
    · have hzero : hi + 1 - (min (lo + (size' - 1)) hi + 1) + (size' - 1) < size' := by omega
      rw [Nat.div_eq_of_lt hzero, show hi + 1 - lo + (size' - 1) = hi - lo + size' by omega,
        Nat.add_div_right _ hpos, Nat.div_eq_of_lt (by omega)]
  rw [hcount, List.range_succ_eq_map, List.map_cons, List.map_map, Nat.zero_mul, Nat.add_zero]
  refine congrArg _ (List.map_congr_left fun i hi' => ?_)
  -- there is a piece after the first only if the first is not cut short
  have hlast : lo + (size' - 1) ≤ hi := by
    by_contra hlast
    have hzero : hi + 1 - (min (lo + (size' - 1)) hi + 1) + (size' - 1) < size' := by omega
    rw [List.mem_range, Nat.div_eq_of_lt hzero] at hi'
    omega
  have hstart : lo + (i + 1) * size' = min (lo + (size' - 1)) hi + 1 + i * size' := by
    rw [Nat.succ_mul]
    omega
  simp only [Function.comp_apply, hstart]

/-- Induction on the pieces of a range. -/
theorem spans_induction (hi size : Nat) {motive : Nat → Prop}
    (nil : ∀ lo, hi < lo → motive lo)
    (cons : ∀ lo, lo ≤ hi → motive (min (lo + (max size 1 - 1)) hi + 1) → motive lo) (lo : Nat) :
    motive lo := by
  by_cases h : lo ≤ hi
  · exact cons lo h (spans_induction hi size nil cons _)
  · exact nil lo (by omega)
termination_by hi + 1 - lo

theorem length_spans (lo hi size : Nat) :
    (spans lo hi size).length = (hi + 1 - lo) ⌈/⌉ max size 1 := by
  have hpos : 0 < max size 1 := by omega
  rw [Nat.ceilDiv_eq_add_pred_div, Nat.add_sub_assoc hpos]
  simp [spans]

/-- The sizes of the pieces add up to the size of the range. -/
theorem sum_spans (lo hi size : Nat) :
    ((spans lo hi size).map fun s => s.2 + 1 - s.1).sum = hi + 1 - lo := by
  induction lo using spans_induction hi size with
  | nil lo h =>
    rw [spans_eq_nil size h, List.map_nil, List.sum_nil]
    omega
  | cons lo h ih =>
    rw [spans_eq_cons size h, List.map_cons, List.sum_cons, ih]
    omega

/-- A number of the range is in one piece, any other in none. -/
theorem countP_spans (lo hi size n : Nat) :
    (spans lo hi size).countP (fun s => s.1 ≤ n && n ≤ s.2) =
      (decide (lo ≤ n) && decide (n ≤ hi)).toNat := by
  induction lo using spans_induction hi size with
  | nil lo h =>
    have hout : decide (lo ≤ n ∧ n ≤ hi) = false := decide_eq_false (by omega)
    rw [spans_eq_nil size h, List.countP_nil, ← Bool.decide_and, hout, Bool.toNat_false]
  | cons lo h ih =>
    rw [spans_eq_cons size h, List.countP_cons, ih]
    simp only [← Bool.decide_and, decide_eq_true_eq, Bool.toNat, Bool.cond_decide]
    split_ifs <;> omega

theorem pairwise_spans (lo hi size : Nat) :
    (spans lo hi size).Pairwise fun s t => s.2 < t.1 := by
  induction lo using spans_induction hi size with
  | nil lo h => simp [spans_eq_nil size h]
  | cons lo h ih =>
    rw [spans_eq_cons size h, List.pairwise_cons]
    exact ⟨fun s hs => (span_bounds hs).1, ih⟩

/-! ## A tiling -/

/-- The order of reading: in an earlier band of rows, or further to the left in the same one. -/
def Before (c d : Rect) : Prop :=
  c.bottom < d.top ∨ (c.top = d.top ∧ c.bottom = d.bottom) ∧ c.right < d.left

/-- What it is for `chunks` to cut a rectangle into pieces of `height` by `width`. -/
structure IsTiling (r : Rect) (height width : Nat) (chunks : List Rect) : Prop where
  isValid : ∀ c ∈ chunks, c.isValid
  inside : ∀ c ∈ chunks, (r.top ≤ c.top ∧ c.bottom ≤ r.bottom) ∧ r.left ≤ c.left ∧ c.right ≤ r.right
  rows_le : ∀ c ∈ chunks, c.rows ≤ height
  cols_le : ∀ c ∈ chunks, c.cols ≤ width
  ordered : chunks.Pairwise Before
  /-- A position of the rectangle is in one of them, any other in none. -/
  countP_contains : ∀ p, chunks.countP (·.contains p) = if r.contains p then 1 else 0
  length_eq : chunks.length = (r.rows ⌈/⌉ height) * (r.cols ⌈/⌉ width)
  length_eq_zero : chunks.length = 0 ↔ ¬ r.isValid
  sum_area : (chunks.map area).sum = r.rows * r.cols

/-- A sum over pairs is the product of the sums where the terms are products. -/
theorem sum_flatMap_mul {α β γ : Type} {f : γ → Nat} {g : α → β → γ} {u : α → Nat} {v : β → Nat}
    (h : ∀ a b, f (g a b) = u a * v b) (as : List α) (bs : List β) :
    ((as.flatMap fun a => bs.map (g a)).map f).sum = (as.map u).sum * (bs.map v).sum := by
  induction as with
  | nil => simp
  | cons a as ih =>
    have hrow : ((bs.map (g a)).map f).sum = u a * (bs.map v).sum := by
      rw [List.map_map, ← List.sum_map_mul_left]
      simp only [Function.comp_def, h]
    rw [List.flatMap_cons, List.map_append, List.sum_append, ih, hrow, List.map_cons,
      List.sum_cons, Nat.add_mul]

theorem countP_eq_sum {α : Type} (p : α → Bool) (l : List α) :
    l.countP p = (l.map fun a => (p a).toNat).sum := by
  induction l with
  | nil => rfl
  | cons a l ih =>
    rw [List.countP_cons, ih, List.map_cons, List.sum_cons]
    cases p a <;> simp [Nat.add_comm]

theorem toNat_and (a b : Bool) : (a && b).toNat = a.toNat * b.toNat := by
  cases a <;> simp

theorem countP_chunks (r : Rect) (rows cols : Nat) (p : Position) :
    (r.chunks rows cols).countP (·.contains p) = (r.contains p).toNat := by
  have hcell : ∀ s t : Nat × Nat, ((⟨s.1, t.1, s.2, t.2⟩ : Rect).contains p).toNat =
      (decide (s.1 ≤ p.row) && decide (p.row ≤ s.2)).toNat *
        (decide (t.1 ≤ p.col) && decide (p.col ≤ t.2)).toNat := fun s t => toNat_and ..
  rw [countP_eq_sum, chunks]
  refine (sum_flatMap_mul (f := fun c : Rect => (c.contains p).toNat) hcell _ _).trans ?_
  rw [← countP_eq_sum, ← countP_eq_sum, countP_spans, countP_spans, ← toNat_and]
  rfl

theorem length_chunks (r : Rect) (rows cols : Nat) :
    (r.chunks rows cols).length = (r.rows ⌈/⌉ max rows 1) * (r.cols ⌈/⌉ max cols 1) := by
  simp [chunks, List.length_flatMap, length_spans, Rect.rows, Rect.cols]

theorem sum_area_chunks (r : Rect) (rows cols : Nat) :
    ((r.chunks rows cols).map area).sum = r.rows * r.cols := by
  have harea : ∀ s t : Nat × Nat, (⟨s.1, t.1, s.2, t.2⟩ : Rect).area =
      (s.2 + 1 - s.1) * (t.2 + 1 - t.1) := fun _ _ => rfl
  rw [chunks, sum_flatMap_mul harea, sum_spans, sum_spans, Rect.rows, Rect.cols]

theorem pairwise_chunks (r : Rect) (rows cols : Nat) : (r.chunks rows cols).Pairwise Before := by
  rw [chunks, List.pairwise_flatMap]
  refine ⟨fun band _ => ?_, (pairwise_spans ..).imp fun hband c hc d hd => ?_⟩
  · exact List.pairwise_map.mpr ((pairwise_spans ..).imp fun h => .inr ⟨⟨rfl, rfl⟩, h⟩)
  · obtain ⟨_, -, rfl⟩ := List.mem_map.mp hc
    obtain ⟨_, -, rfl⟩ := List.mem_map.mp hd
    exact .inl hband

theorem chunks_eq_nil_iff (r : Rect) (rows cols : Nat) : r.chunks rows cols = [] ↔ ¬ r.isValid := by
  constructor
  · intro hnil hvalid
    obtain ⟨c, rest, hcons, -⟩ := exists_chunks_eq_cons hvalid rows cols
    rw [hnil] at hcons
    cases hcons
  · intro hinverted
    rw [List.eq_nil_iff_forall_not_mem]
    intro c hc
    obtain ⟨⟨top, bottom⟩, hrow, hc⟩ := List.mem_flatMap.mp hc
    obtain ⟨⟨left, right⟩, hcol, rfl⟩ := List.mem_map.mp hc
    have hr := span_bounds hrow
    have hc := span_bounds hcol
    exact hinverted (isValid_iff.mpr (by omega))

/-- Chunks of any shape tile any rectangle. -/
theorem isTiling_chunks (r : Rect) (rows cols : Nat) :
    r.IsTiling (max rows 1) (max cols 1) (r.chunks rows cols) := by
  have hbounds : ∀ c ∈ r.chunks rows cols,
      ((r.top ≤ c.top ∧ c.bottom ≤ r.bottom) ∧ r.left ≤ c.left ∧ c.right ≤ r.right) ∧
        c.rows ≤ max rows 1 ∧ c.cols ≤ max cols 1 := by
    intro c hc
    obtain ⟨⟨top, bottom⟩, hrow, hc⟩ := List.mem_flatMap.mp hc
    obtain ⟨⟨left, right⟩, hcol, rfl⟩ := List.mem_map.mp hc
    have hr := span_bounds hrow
    have hc := span_bounds hcol
    exact ⟨⟨⟨hr.1, hr.2.2.1⟩, hc.1, hc.2.2.1⟩, hr.2.2.2, hc.2.2.2⟩
  exact {
    isValid := fun c hc => (chunk_bounds hc).1
    inside := fun c hc => (hbounds c hc).1
    rows_le := fun c hc => (hbounds c hc).2.1
    cols_le := fun c hc => (hbounds c hc).2.2
    ordered := pairwise_chunks r rows cols
    countP_contains := fun p => by rw [countP_chunks, Bool.toNat, Bool.cond_eq_ite]
    length_eq := length_chunks r rows cols
    length_eq_zero := by rw [List.length_eq_zero_iff, chunks_eq_nil_iff]
    sum_area := sum_area_chunks r rows cols }

example : (⟨4294967290, 3, 4294967295, 3⟩ : Rect).chunks 4 0 =
    [⟨4294967290, 3, 4294967293, 3⟩, ⟨4294967294, 3, 4294967295, 3⟩] := by decide

end Rect

/-! ## The loops over words -/

/-- The sum of two words, the greatest word where the sum is not one. -/
def saturatingAdd (a b : UInt32) : UInt32 :=
  if a.toNat + b.toNat < UInt32.size then a + b else UInt32.ofNat (UInt32.size - 1)

/-- The word after another, none after the greatest. -/
def nextWord? (a : UInt32) : Option UInt32 :=
  if a.toNat + 1 < UInt32.size then some (a + 1) else none

theorem toNat_saturatingAdd (a b : UInt32) :
    (saturatingAdd a b).toNat = min (a.toNat + b.toNat) (UInt32.size - 1) := by
  unfold saturatingAdd
  split
  · next h =>
    rw [UInt32.toNat_add, Nat.mod_eq_of_lt h]
    omega
  · rw [UInt32.toNat_ofNat_of_lt' (by decide)]
    omega

theorem toNat_of_nextWord? {a b : UInt32} (h : nextWord? a = some b) : b.toNat = a.toNat + 1 := by
  unfold nextWord? at h
  split at h
  · next hlt =>
    obtain rfl := Option.some.inj h
    rw [UInt32.toNat_add, UInt32.toNat_one, Nat.mod_eq_of_lt hlt]
  · cases h

theorem toNat_of_nextWord?_eq_none {a : UInt32} (h : nextWord? a = none) :
    a.toNat = UInt32.size - 1 := by
  have hlt := a.toNat_lt_size
  unfold nextWord? at h
  split at h
  · cases h
  · omega

/-- The end of the piece of `size` words from `start` on, `stop` at most. -/
def lastWord (size start stop : UInt32) : UInt32 := min (saturatingAdd start (size - 1)) stop

theorem le_lastWord (size : UInt32) {start stop : UInt32} (h : start ≤ stop) :
    start.toNat ≤ (lastWord size start stop).toNat := by
  have hstart := start.toNat_lt_size
  have hle := UInt32.le_iff_toNat_le.mp h
  rw [lastWord, UInt32.toNat_min, toNat_saturatingAdd]
  omega

theorem sub_next_lt {size start stop next : UInt32} (h : start ≤ stop)
    (hnext : nextWord? (lastWord size start stop) = some next) :
    stop.toNat + 1 - next.toNat < stop.toNat + 1 - start.toNat := by
  have hle := UInt32.le_iff_toNat_le.mp h
  have hlast := le_lastWord size h
  have hsucc := toNat_of_nextWord? hnext
  omega

/-- The words from `start` to `stop` in pieces of `size`: one piece, then the loop goes on at the
word after it, if there is one. -/
def wordSpans (size start stop : UInt32) : List (UInt32 × UInt32) :=
  if h : start ≤ stop then
    (start, lastWord size start stop) ::
      match hnext : nextWord? (lastWord size start stop) with
      | some next =>
        have := sub_next_lt h hnext
        wordSpans size next stop
      | none => []
  else []
termination_by stop.toNat + 1 - start.toNat

/-- A rectangle whose bounds are words. -/
structure WordRect where
  top : UInt32
  left : UInt32
  bottom : UInt32
  right : UInt32

/-- The rectangle with the same bounds. -/
def WordRect.toRect (r : WordRect) : Rect :=
  ⟨r.top.toNat, r.left.toNat, r.bottom.toNat, r.right.toNat⟩

/-- The two loops: bands of rows from the top, and each of them from the left. -/
def WordRect.chunks (r : WordRect) (rows cols : UInt32) : List WordRect :=
  (wordSpans (max rows 1) r.top r.bottom).flatMap fun (top, bottom) =>
    (wordSpans (max cols 1) r.left r.right).map fun (left, right) => ⟨top, left, bottom, right⟩

/-- The subtraction in a loop does not wrap, since a size of zero counts as one. -/
theorem toNat_size_sub_one (size : UInt32) :
    (max size 1 - 1).toNat = max size.toNat 1 - 1 := by
  have hle : (1 : UInt32) ≤ max size 1 := by
    rw [UInt32.le_iff_toNat_le, UInt32.toNat_max]
    exact Nat.le_max_right ..
  rw [UInt32.toNat_sub_of_le _ _ hle, UInt32.toNat_max, UInt32.toNat_one]

theorem toNat_lastWord (size start stop : UInt32) :
    (lastWord (max size 1) start stop).toNat =
      min (start.toNat + (max size.toNat 1 - 1)) stop.toNat := by
  have hstop := stop.toNat_lt_size
  rw [lastWord, UInt32.toNat_min, toNat_saturatingAdd, toNat_size_sub_one]
  omega

/-- The loop lists the pieces of the range of numbers. -/
theorem map_toNat_wordSpans (size start stop : UInt32) :
    (wordSpans (max size 1) start stop).map (fun s => (s.1.toNat, s.2.toNat)) =
      Rect.spans start.toNat stop.toNat size.toNat := by
  fun_induction wordSpans (max size 1) start stop with
  | case1 start h ih =>
    rw [List.map_cons, Rect.spans_eq_cons _ (UInt32.le_iff_toNat_le.mp h), ← toNat_lastWord]
    refine congrArg _ ?_
    split
    · next next hnext => rw [ih next hnext, toNat_of_nextWord? hnext]
    · next hnext =>
      -- no word comes after this piece, so it ends with the range
      have hmax := toNat_of_nextWord?_eq_none hnext
      have hstop := stop.toNat_lt_size
      rw [List.map_nil, Rect.spans_eq_nil _ (by omega)]
  | case2 start h =>
    rw [UInt32.le_iff_toNat_le] at h
    rw [List.map_nil, Rect.spans_eq_nil _ (by omega)]

theorem map_toRect_chunks (r : WordRect) (rows cols : UInt32) :
    (r.chunks rows cols).map WordRect.toRect = r.toRect.chunks rows.toNat cols.toNat := by
  simp only [WordRect.chunks, Rect.chunks, WordRect.toRect, ← map_toNat_wordSpans,
    List.map_flatMap, List.flatMap_map, List.map_map, Function.comp_def]

/-- For every rectangle and every shape in words the loops end, and what they list are the chunks
of the rectangle: a tiling of it, each piece with an area that fits 64 bits. -/
theorem isTiling_wordChunks (r : WordRect) (rows cols : UInt32) :
    (r.chunks rows cols).map WordRect.toRect = r.toRect.chunks rows.toNat cols.toNat ∧
      r.toRect.IsTiling (max rows.toNat 1) (max cols.toNat 1)
        ((r.chunks rows cols).map WordRect.toRect) ∧
      ∀ c ∈ r.chunks rows cols, c.toRect.area < UInt64.size := by
  rw [map_toRect_chunks]
  have htiling := Rect.isTiling_chunks r.toRect rows.toNat cols.toNat
  refine ⟨rfl, htiling, fun c hc => ?_⟩
  have hmem : c.toRect ∈ r.toRect.chunks rows.toNat cols.toNat := by
    rw [← map_toRect_chunks]
    exact List.mem_map_of_mem hc
  have hrows := htiling.rows_le _ hmem
  have hcols := htiling.cols_le _ hmem
  have hrowWord : rows.toNat < 2 ^ 32 := rows.toNat_lt_size
  have hcolWord : cols.toNat < 2 ^ 32 := cols.toNat_lt_size
  calc c.toRect.rows * c.toRect.cols ≤ (2 ^ 32 - 1) * (2 ^ 32 - 1) :=
        Nat.mul_le_mul (by omega) (by omega)
    _ < UInt64.size := by decide

end SheetSync
