import SheetSync.Workbook.Identity
import Mathlib.Data.Nat.Notation
/-!
Session tokens. The last part of a token counts the tokens of its source in hexadecimal digits, from
which the count can be read back, so no two tokens of a source are the same.
-/
namespace SheetSync

/-- The value of a hexadecimal digit. -/
def hexDigitValue (c : Char) : Nat := (List.range 16).findIdx fun d => d.digitChar = c

/-- The value of hexadecimal digits. -/
def hexValue (cs : List Char) : Nat := cs.foldl (fun n c => 16 * n + hexDigitValue c) 0

theorem hexDigitValue_digitChar {d : Nat} (hd : d < 16) : hexDigitValue d.digitChar = d := by
  revert d
  decide

theorem hexValue_concat (cs : List Char) (c : Char) :
    hexValue (cs ++ [c]) = 16 * hexValue cs + hexDigitValue c := by
  simp [hexValue, List.foldl_append]

theorem hexValue_toDigits (n : Nat) : hexValue (Nat.toDigits 16 n) = n := by
  -- the last digit is the remainder, those before it are the digits of the quotient
  induction n using Nat.strongRecOn with
  | ind n ih =>
    rcases Nat.lt_or_ge n 16 with hn | hn
    · rw [Nat.toDigits_of_lt_base hn]
      have hvalue := hexDigitValue_digitChar hn
      simpa [hexValue] using hvalue
    · rw [Nat.toDigits_of_base_le (by decide) hn, hexValue_concat,
        hexDigitValue_digitChar (Nat.mod_lt n (by decide)), ih (n / 16) (by omega)]
      omega

theorem hexValue_replicate_append (k : Nat) (cs : List Char) :
    hexValue (List.replicate k '0' ++ cs) = hexValue cs := by
  induction k with
  | zero => rfl
  | succ k ih =>
    rw [List.replicate_succ, List.cons_append, ← ih]
    rfl

theorem hexDigits_injective (width : Nat) {m n : Nat} (h : hexDigits width m = hexDigits width n) :
    m = n := by
  have hlist := congrArg (fun s => hexValue s.toList) h
  simpa [hexDigits, hexValue_replicate_append, hexValue_toDigits] using hlist

namespace TokenSource

/-- Tokens of one source are told apart by how many were given out before. -/
theorem given_eq_of_token_eq {s t : TokenSource} (hkey : s.key = t.key) (h : s.token = t.token) :
    s.given = t.given := by
  obtain ⟨key, m⟩ := s
  obtain ⟨_, n⟩ := t
  obtain rfl : key = _ := hkey
  apply hexDigits_injective 12
  exact String.append_right_inj _ |>.mp h

end TokenSource

end SheetSync
