import SheetSync.Workbook.Identity
import Std.Data.String.ToInt
/-!
Signatures of files of which both time and size are known. A path may hold colons, digits and signs
of any kind, but a number is written without a colon, so the two numbers are read off the end of a
signature, and what is left is the path.

Main statement: `Signature.ofStat_eq_ofStat_iff`.
-/
namespace SheetSync

/-- What comes after the last of some separators is told from what comes before it. -/
theorem append_cons_inj_of_not_mem {α : Type} {sep : α} {x y b c : List α} (hb : sep ∉ b)
    (hc : sep ∉ c) : x ++ sep :: b = y ++ sep :: c ↔ x = y ∧ b = c := by
  constructor
  · intro h
    -- one of the two beginnings goes on where the other one ends, by nothing or by a separator
    rcases List.append_eq_append_iff.mp h with ⟨z, rfl, hz⟩ | ⟨z, rfl, hz⟩
    · cases z with
      | nil => simpa using hz
      | cons a z =>
        obtain ⟨-, rfl⟩ := List.cons.inj hz
        simp at hb
    · cases z with
      | nil => simpa [eq_comm] using hz
      | cons a z =>
        obtain ⟨-, rfl⟩ := List.cons.inj hz
        simp at hc
  · rintro ⟨rfl, rfl⟩
    rfl

theorem colon_not_mem_repr (n : Nat) : ':' ∉ n.repr.toList := by
  intro h
  rw [Nat.toList_repr] at h
  have hdigit : (':' : Char).isDigit := Nat.isDigit_of_mem_toDigits (by decide) (by decide) h
  exact absurd hdigit (by decide)

theorem colon_not_mem_toString (i : Int) : ':' ∉ (toString i).toList := by
  cases i with
  | ofNat n => exact colon_not_mem_repr n
  | negSucc n =>
    intro h
    have h : ':' ∈ ("-" ++ (n + 1).repr).toList := h
    rw [String.toList_append] at h
    rcases List.mem_append.mp h with h | h
    · exact absurd h (by decide)
    · exact colon_not_mem_repr (n + 1) h

namespace Signature

theorem toList_ofStat (path : String) (time : Int) (size : Nat) :
    (ofStat path ⟨some time, some size⟩).text.toList =
      (path.toList ++ ':' :: (toString time).toList) ++ ':' :: size.repr.toList := by
  show (s!"{path}:{time}:{size}").toList = _
  simp [toString]

/-- Files of which both time and size are known have a signature in common just if path, time and
size agree. A file that was changed since, or one that lies elsewhere, has another signature. -/
theorem ofStat_eq_ofStat_iff (path path' : String) (time time' : Int) (size size' : Nat) :
    ofStat path ⟨some time, some size⟩ = ofStat path' ⟨some time', some size'⟩ ↔
      path = path' ∧ time = time' ∧ size = size' := by
  constructor
  · intro h
    have htext := congrArg (fun s => s.text.toList) h
    simp only [toList_ofStat] at htext
    -- the size is read off first, and the time before it
    obtain ⟨hrest, hsize⟩ := (append_cons_inj_of_not_mem (colon_not_mem_repr size)
      (colon_not_mem_repr size')).mp htext
    obtain ⟨hpath, htime⟩ := (append_cons_inj_of_not_mem (colon_not_mem_toString time)
      (colon_not_mem_toString time')).mp hrest
    exact ⟨String.toList_inj.mp hpath, Int.repr_inj.mp (String.toList_inj.mp htime),
      Nat.repr_inj.mp (String.toList_inj.mp hsize)⟩
  · rintro ⟨rfl, rfl, rfl⟩
    rfl

/-- A path that looks like the end of a signature does no harm. -/
example : ofStat "a:1" ⟨some 2, some 3⟩ ≠ ofStat "a" ⟨some 1, some 23⟩ := by decide

end Signature

end SheetSync
