import Std.Data.ExtTreeMap
/-!
Positions on a sheet, ordered by row and then by column.
-/
namespace SheetSync

/-- A cell's place on its sheet, both numbers counted from zero. -/
structure Position where
  row : Nat
  col : Nat
deriving DecidableEq, Inhabited

namespace Position

instance : Ord Position where
  compare p q := (compare p.row q.row).then (compare p.col q.col)

theorem compare_def (p q : Position) :
    compare p q = (compare p.row q.row).then (compare p.col q.col) := rfl

theorem compare_eq_lt {p q : Position} :
    compare p q = .lt ↔ p.row < q.row ∨ (p.row = q.row ∧ p.col < q.col) := by
  simp [compare_def, Ordering.then_eq_lt, Nat.compare_eq_lt]

instance : Std.OrientedCmp (compare : Position → Position → Ordering) where
  eq_swap {p q} := by
    simp only [compare_def, Ordering.swap_then, ← Std.OrientedCmp.eq_swap]

instance : Std.TransCmp (compare : Position → Position → Ordering) where
  isLE_trans {p q r} hpq hqr := by
    simp only [compare_def, Ordering.isLE_then_iff_or, Nat.compare_eq_lt, Nat.compare_eq_eq,
      Nat.isLE_compare] at *
    omega

instance : Std.LawfulEqCmp (compare : Position → Position → Ordering) where
  eq_of_compare {p q} h := by
    simp only [compare_def, Ordering.then_eq_eq, Nat.compare_eq_eq] at h
    cases p; cases q; simp_all
  compare_self := by simp

end Position

/-- Contents by position; two such maps are equal when they hold the same at every position. -/
abbrev ByPosition (α : Type) := Std.ExtTreeMap Position α compare

end SheetSync
