import Mathlib.Data.List.TakeDrop
import SheetSync.Json.Printer
import SheetSync.Json.Reader
/-!
Reading what was printed. A tree that holds no binary number and whose integers are within 64 bits
is the one that is read from its indented form, whatever texts and names it holds.

Main statement: `read?_pretty`. The reader runs on fuel; what it needs for a value is the length of
the value's text (`value?_indented`).
-/
namespace SheetSync.Json

/-- Trees whose literals stand for themselves. -/
inductive IsExact : Json → Prop where
  | null : IsExact .null
  | bool (b : Bool) : IsExact (.bool b)
  | int {n : Int} (lo : -Int.pow 2 63 ≤ n) (hi : n < Int.pow 2 64) : IsExact (.int n)
  | str (s : String) : IsExact (.str s)
  | arr {items : List Json} (h : ∀ x ∈ items, IsExact x) : IsExact (.arr items)
  | obj {members : List (String × Json)} (h : ∀ m ∈ members, IsExact m.2) : IsExact (.obj members)

/-! ## Numbers -/

/-- What may come after a number: nothing that could be taken for a part of it. -/
def EndsNumber (rest : List Char) : Prop :=
  ∀ c, rest.head? = some c → c.isDigit = false ∧ c ≠ '.' ∧ c ≠ 'e' ∧ c ≠ 'E'

theorem endsNumber_nil : EndsNumber [] := by
  intro c h
  cases h

theorem endsNumber_cons {c : Char} (hc : c = ',' ∨ c = '\n') (rest : List Char) :
    EndsNumber (c :: rest) := by
  intro d hd
  obtain rfl : c = d := by simpa using hd
  rcases hc with rfl | rfl <;> decide

theorem digits_append {ds rest : List Char} (hds : ∀ c ∈ ds, c.isDigit)
    (hrest : EndsNumber rest) : digits (ds ++ rest) = (ds, rest) := by
  rw [digits, List.span_eq_takeWhile_dropWhile, List.takeWhile_append_of_pos hds,
    List.dropWhile_append_of_pos hds]
  cases rest with
  | nil => simp
  | cons c rest =>
    have hc : c.isDigit = false := (hrest c rfl).1
    simp [hc]

theorem natOfDigits_concat (cs : List Char) (c : Char) :
    natOfDigits (cs ++ [c]) = 10 * natOfDigits cs + (c.toNat - 48) := by
  simp [natOfDigits, List.foldl_append]

theorem toNat_digitChar_sub {d : Nat} (hd : d < 10) : d.digitChar.toNat - 48 = d := by
  revert d
  decide

theorem natOfDigits_toDigits (n : Nat) : natOfDigits (Nat.toDigits 10 n) = n := by
  -- the last digit is the remainder, those before it are the digits of the quotient
  induction n using Nat.strongRecOn with
  | ind n ih =>
    rcases Nat.lt_or_ge n 10 with hn | hn
    · rw [Nat.toDigits_of_lt_base hn]
      simpa [natOfDigits] using toNat_digitChar_sub hn
    · rw [Nat.toDigits_of_base_le (by decide) hn, natOfDigits_concat,
        toNat_digitChar_sub (Nat.mod_lt n (by decide)), ih (n / 10) (by omega)]
      omega

/-- Only zero starts with a zero. -/
theorem head?_toDigits {n : Nat} (hn : 0 < n) : (Nat.toDigits 10 n).head? ≠ some '0' := by
  induction n using Nat.strongRecOn with
  | ind n ih =>
    rcases Nat.lt_or_ge n 10 with hlt | hge
    · have hdigit : ∀ d, d < 10 → 0 < d → [d.digitChar].head? ≠ some '0' := by decide
      rw [Nat.toDigits_of_lt_base hlt]
      exact hdigit n hlt hn
    · have hhead := ih (n / 10) (by omega) (by omega)
      rw [Nat.toDigits_of_base_le (by decide) hge, List.head?_append]
      cases h : (Nat.toDigits 10 (n / 10)).head? with
      | none => exact absurd (List.head?_eq_none_iff.mp h) Nat.toDigits_ne_nil
      | some d => simpa [h] using hhead

theorem isDigit_of_mem_toDigits {n : Nat} {c : Char} (hc : c ∈ Nat.toDigits 10 n) : c.isDigit :=
  Nat.isDigit_of_mem_toDigits (by decide) (Nat.le_refl 10) hc

namespace Literal

theorem scanWhole_toDigits (n : Nat) {rest : List Char} (hrest : EndsNumber rest) :
    scanWhole (Nat.toDigits 10 n ++ rest) = some (Nat.toDigits 10 n, rest) := by
  have hdigits := digits_append (fun c hc => isDigit_of_mem_toDigits (n := n) hc) hrest
  unfold scanWhole
  rw [hdigits]
  rcases Nat.eq_zero_or_pos n with rfl | hn
  · rfl
  · have hhead := head?_toDigits hn
    split
    · next h => exact absurd (congrArg Prod.fst h) Nat.toDigits_ne_nil
    · next h =>
      rw [(Prod.mk.inj h).1] at hhead
      exact absurd rfl hhead
    · next h =>
      obtain ⟨rfl, rfl⟩ := Prod.mk.inj h
      rfl

theorem scanFraction_of_endsNumber {rest : List Char} (hrest : EndsNumber rest) :
    scanFraction rest = some (none, rest) := by
  unfold scanFraction
  split
  · exact absurd rfl (hrest '.' rfl).2.1
  · rfl

theorem scanPower_of_endsNumber {rest : List Char} (hrest : EndsNumber rest) :
    scanPower rest = some (none, rest) := by
  cases rest with
  | nil => rfl
  | cons c rest =>
    obtain ⟨-, -, he, hE⟩ := hrest c rfl
    simp [scanPower, he, hE]

/-- The literal of a natural number. -/
theorem scan?_toDigits (n : Nat) {rest : List Char} (hrest : EndsNumber rest) :
    scan? (Nat.toDigits 10 n ++ rest) = some (⟨false, Nat.toDigits 10 n, none, none⟩, rest) := by
  unfold scan?
  simp only []
  split
  · next h =>
    -- no digit is a sign
    exfalso
    cases hd : Nat.toDigits 10 n with
    | nil => exact Nat.toDigits_ne_nil hd
    | cons d ds =>
      have hdigit : d.isDigit := isDigit_of_mem_toDigits (by rw [hd]; exact List.mem_cons_self)
      rw [hd] at h
      rw [(List.cons.inj h).1] at hdigit
      exact absurd hdigit (by decide)
  · simp [scanWhole_toDigits n hrest, scanFraction_of_endsNumber hrest,
      scanPower_of_endsNumber hrest]

theorem scan?_neg_toDigits (n : Nat) {rest : List Char} (hrest : EndsNumber rest) :
    scan? ('-' :: (Nat.toDigits 10 n ++ rest)) =
      some (⟨true, Nat.toDigits 10 n, none, none⟩, rest) := by
  simp [scan?, scanWhole_toDigits n hrest, scanFraction_of_endsNumber hrest,
    scanPower_of_endsNumber hrest]

end Literal

theorem int_pow_63 : Int.pow 2 63 = 9223372036854775808 := by decide

theorem int_pow_64 : Int.pow 2 64 = 18446744073709551616 := by decide

/-- An integer within 64 bits is read from its digits. -/
theorem exists_scan?_int {n : Int} (lo : -Int.pow 2 63 ≤ n) (hi : n < Int.pow 2 64)
    {rest : List Char} (hrest : EndsNumber rest) :
    ∃ x, Literal.scan? ((toString n).toList ++ rest) = some (x, rest) ∧ x.value = .int n := by
  rw [int_pow_63] at lo
  rw [int_pow_64] at hi
  cases n with
  | ofNat n =>
    have htext : (toString (Int.ofNat n)).toList = Nat.toDigits 10 n := Nat.toList_repr
    have hn : n < Nat.pow 2 64 := by
      have hpow : Nat.pow 2 64 = 18446744073709551616 := by decide
      rw [Int.ofNat_eq_natCast] at hi
      omega
    rw [htext]
    refine ⟨_, Literal.scan?_toDigits n hrest, ?_⟩
    simp only [Literal.value, Literal.isInteger, natOfDigits_toDigits, hn, decide_true]
    rfl
  | negSucc n =>
    have htext : (toString (Int.negSucc n)).toList = '-' :: Nat.toDigits 10 (n + 1) :=
      (String.toList_append ..).trans (congrArg (['-'] ++ ·) Nat.toList_repr)
    have hn : n + 1 ≤ Nat.pow 2 63 := by
      have hpow : Nat.pow 2 63 = 9223372036854775808 := by decide
      omega
    rw [htext]
    refine ⟨_, Literal.scan?_neg_toDigits (n + 1) hrest, ?_⟩
    simp only [Literal.value, Literal.isInteger, natOfDigits_toDigits, hn, decide_true]
    rfl

/-! ## Strings -/

theorem hexDigit?_hexChar {n : Nat} (hn : n < 16) : hexDigit? (hexChar n) = some n := by
  revert n
  decide

theorem hexUnit?_hexChars {n : Nat} (hn : n < 256) (rest : List Char) :
    hexUnit? ('0' :: '0' :: hexChar (n / 16) :: hexChar (n % 16) :: rest) = some (n, rest) := by
  have hzero : hexDigit? '0' = some 0 := by decide
  simp only [hexUnit?, hzero, hexDigit?_hexChar (show n / 16 < 16 by omega),
    hexDigit?_hexChar (show n % 16 < 16 by omega)]
  simp
  omega

/-- A character between quotes is read as itself. -/
theorem stringBody_escaped (c : Char) (fuel : Nat) (acc rest : List Char) :
    stringBody none (fuel + 1) acc true (escaped c ++ rest) =
      stringBody none fuel (c :: acc) true rest := by
  unfold escaped
  split
  · next h => subst h; rfl
  split
  · next h => subst h; rfl
  split
  · next h => subst h; rfl
  split
  · next h => subst h; rfl
  split
  · next h => subst h; rfl
  split
  · next h => subst h; rfl
  split
  · next h => subst h; rfl
  split
  · next hc =>
    have hunit := hexUnit?_hexChars (show c.toNat < 256 by omega) rest
    have hhigh : isHighSurrogate c.toNat = false := by simp [isHighSurrogate]; omega
    have hlow : isLowSurrogate c.toNat = false := by simp [isLowSurrogate]; omega
    simp [stringBody, hunit, hhigh, hlow]
  · next hquote hslash _ _ _ _ _ hc => simp [stringBody, hslash, hc]

theorem stringBody_flatMap_escaped (cs : List Char) (fuel : Nat) (hfuel : cs.length < fuel)
    (acc rest : List Char) :
    stringBody none fuel acc true (cs.flatMap escaped ++ '"' :: rest) =
      some (some (String.ofList (acc.reverse ++ cs)), rest) := by
  induction cs generalizing fuel acc with
  | nil =>
    cases fuel with
    | zero => omega
    | succ fuel => simp [stringBody]
  | cons c cs ih =>
    cases fuel with
    | zero => omega
    | succ fuel =>
      have hcs := ih fuel (by simpa using hfuel) (c :: acc)
      rw [List.flatMap_cons, List.append_assoc, stringBody_escaped, hcs]
      simp

theorem length_le_flatMap_escaped (cs : List Char) : cs.length ≤ (cs.flatMap escaped).length := by
  induction cs with
  | nil => simp
  | cons c cs ih =>
    have hc : 0 < (escaped c).length := by
      unfold escaped
      repeat' split
      all_goals simp
    rw [List.flatMap_cons, List.length_append, List.length_cons]
    omega

/-- A text is read from its quoted form. -/
theorem string?_quoted (s : String) {fuel : Nat} (hfuel : (quoted s).length ≤ fuel + 1)
    (rest : List Char) :
    string? none fuel (s.toList.flatMap escaped ++ '"' :: rest) = some (some s, rest) := by
  have hlen : s.toList.length < fuel := by
    have hle := length_le_flatMap_escaped s.toList
    simp only [quoted, List.length_cons, List.length_append, List.length_nil] at hfuel
    omega
  simpa [string?] using stringBody_flatMap_escaped s.toList fuel hlen [] rest

/-! ## Blanks -/

theorem isBlank_of_mem_newline {level : Nat} {c : Char} (hc : c ∈ newline level) : isBlank c := by
  rw [newline, List.mem_cons] at hc
  rcases hc with rfl | hc
  · rfl
  · rw [List.eq_of_mem_replicate hc]
    rfl

@[simp] theorem skipBlanks_newline (level : Nat) (cs : List Char) :
    skipBlanks (newline level ++ cs) = skipBlanks cs :=
  List.dropWhile_append_of_pos fun _ hc => isBlank_of_mem_newline hc

theorem skipBlanks_space (cs : List Char) : skipBlanks (' ' :: cs) = skipBlanks cs :=
  List.dropWhile_cons_of_pos rfl

theorem skipBlanks_cons {c : Char} (hc : isBlank c = false) (cs : List Char) :
    skipBlanks (c :: cs) = c :: cs := by
  simp [skipBlanks, hc]

/-- A reader of values does not look at blanks before them. -/
theorem value?_skipBlanks {cs cs' : List Char} (h : skipBlanks cs = skipBlanks cs') (fuel : Nat) :
    value? none fuel cs = value? none fuel cs' := by
  cases fuel with
  | zero => simp [value?]
  | succ fuel => rw [value?, value?, h]

theorem items?_skipBlanks {cs cs' : List Char} (h : skipBlanks cs = skipBlanks cs') (fuel : Nat) :
    items? none fuel cs = items? none fuel cs' := by
  cases fuel with
  | zero => simp [items?]
  | succ fuel => rw [items?, items?, value?_skipBlanks h]

theorem members?_skipBlanks {cs cs' : List Char} (h : skipBlanks cs = skipBlanks cs')
    (fuel : Nat) : members? none fuel cs = members? none fuel cs' := by
  cases fuel with
  | zero => simp [members?]
  | succ fuel => rw [members?, members?, h]

/-! ## Values -/

theorem exists_toString_cons (n : Int) :
    ∃ c cs, (toString n).toList = c :: cs ∧ (c = '-' ∨ c.isDigit) := by
  cases n with
  | ofNat n =>
    have htext : (toString (Int.ofNat n)).toList = Nat.toDigits 10 n := Nat.toList_repr
    obtain ⟨c, cs, hcs⟩ := List.exists_cons_of_ne_nil (Nat.toDigits_ne_nil (n := n) (b := 10))
    exact ⟨c, cs, htext.trans hcs, .inr (isDigit_of_mem_toDigits (n := n) (by simp [hcs]))⟩
  | negSucc n => exact ⟨'-', (toString (n + 1)).toList, String.toList_append .., .inl rfl⟩

theorem ne_of_number {c d : Char} (hc : c = '-' ∨ c.isDigit) (hminus : d ≠ '-')
    (hdigit : d.isDigit = false) : c ≠ d := by
  rintro rfl
  rcases hc with rfl | hc
  · exact hminus rfl
  · rw [hdigit] at hc
    cases hc

theorem isBlank_of_number {c : Char} (hc : c = '-' ∨ c.isDigit) : isBlank c = false := by
  have hspace : c ≠ ' ' := ne_of_number hc (by decide) rfl
  have hnewline : c ≠ '\n' := ne_of_number hc (by decide) rfl
  have htab : c ≠ '\t' := ne_of_number hc (by decide) rfl
  have hreturn : c ≠ '\r' := ne_of_number hc (by decide) rfl
  simp [isBlank, hspace, hnewline, htab, hreturn]

/-- What starts with a sign or a digit is read as a number. -/
theorem value?_number {c : Char} (hc : c = '-' ∨ c.isDigit) (cs : List Char) (fuel : Nat) :
    value? none (fuel + 1) (c :: cs) =
      (Literal.scan? (c :: cs)).map fun x => (x.1.value, x.2) := by
  rw [value?, skipBlanks_cons (isBlank_of_number hc)]
  split
  · next h => exact absurd (List.cons.inj h).1 (ne_of_number hc (by decide) (by decide))
  · next h => exact absurd (List.cons.inj h).1 (ne_of_number hc (by decide) (by decide))
  · next h => exact absurd (List.cons.inj h).1 (ne_of_number hc (by decide) (by decide))
  · next h => exact absurd (List.cons.inj h).1 (ne_of_number hc (by decide) (by decide))
  · next h => exact absurd (List.cons.inj h).1 (ne_of_number hc (by decide) (by decide))
  · next h => exact absurd (List.cons.inj h).1 (ne_of_number hc (by decide) (by decide))
  · cases Literal.scan? (c :: cs) <;> rfl

/-- The first character of a value: no blank, and no closing bracket. -/
theorem IsExact.exists_indented_cons {x : Json} (h : x.IsExact) (level : Nat) :
    ∃ c cs, indented level x = c :: cs ∧ isBlank c = false ∧ c ≠ ']' ∧ c ≠ '}' := by
  cases h with
  | null => exact ⟨'n', _, rfl, by decide⟩
  | bool b =>
    cases b with
    | true => exact ⟨'t', _, rfl, by decide⟩
    | false => exact ⟨'f', _, rfl, by decide⟩
  | @int n lo hi =>
    obtain ⟨c, cs, hcs, hc⟩ := exists_toString_cons n
    exact ⟨c, cs, hcs, isBlank_of_number hc, ne_of_number hc (by decide) (by decide),
      ne_of_number hc (by decide) (by decide)⟩
  | str s => exact ⟨'"', _, rfl, by decide⟩
  | @arr items h =>
    cases items with
    | nil => exact ⟨'[', _, rfl, by decide⟩
    | cons => exact ⟨'[', _, rfl, by decide⟩
  | @obj members h =>
    cases members with
    | nil => exact ⟨'{', _, rfl, by decide⟩
    | cons => exact ⟨'{', _, rfl, by decide⟩

theorem value?_items {cs ts : List Char} (h : skipBlanks cs = ts) (hts : ts.head? ≠ some ']')
    (fuel : Nat) :
    value? none (fuel + 1) ('[' :: cs) = (items? none fuel ts).map fun x => (.arr x.1, x.2) := by
  rw [value?, skipBlanks_cons rfl]
  simp only [h]
  split
  · exact absurd rfl hts
  · cases items? none fuel ts <;> rfl

theorem value?_members {cs ts : List Char} (h : skipBlanks cs = ts) (hts : ts.head? ≠ some '}')
    (fuel : Nat) :
    value? none (fuel + 1) ('{' :: cs) = (members? none fuel ts).map fun x => (object x.1, x.2) := by
  rw [value?, skipBlanks_cons rfl]
  simp only [h]
  split
  · exact absurd rfl hts
  · cases members? none fuel ts <;> rfl

/-- A value is read from its indented form, whatever comes after it that is no part of a number. -/
def ReadsBack (x : Json) : Prop :=
  ∀ level fuel rest, (indented level x).length < fuel → EndsNumber rest →
    value? none fuel (indented level x ++ rest) = some (x, rest)

theorem endsNumber_newline (level : Nat) (rest : List Char) :
    EndsNumber (newline level ++ rest) := endsNumber_cons (.inr rfl) _

theorem endsNumber_indentedItems (level : Nat) (xs : List Json) (rest : List Char) :
    EndsNumber (indentedItems (level + 1) false xs ++ (newline level ++ rest)) := by
  cases xs with
  | nil => exact endsNumber_newline level rest
  | cons x xs => exact endsNumber_cons (.inl rfl) _

theorem endsNumber_indentedMembers (level : Nat) (ms : List (String × Json)) (rest : List Char) :
    EndsNumber (indentedMembers (level + 1) false ms ++ (newline level ++ rest)) := by
  cases ms with
  | nil => exact endsNumber_newline level rest
  | cons m ms => exact endsNumber_cons (.inl rfl) _

/-- The items of an array are read one after the other, up to the bracket. -/
theorem items?_indented {x : Json} {xs : List Json} (hx : ReadsBack x) (hxs : ∀ y ∈ xs, ReadsBack y)
    (level fuel : Nat)
    (hfuel : (indented (level + 1) x).length + (indentedItems (level + 1) false xs).length + 1 < fuel)
    (rest : List Char) :
    items? none fuel (indented (level + 1) x ++ (indentedItems (level + 1) false xs ++
      (newline level ++ ']' :: rest))) = some (x :: xs, rest) := by
  -- on the items that are left
  induction xs generalizing x fuel with
  | nil =>
    cases fuel with
    | zero => omega
    | succ fuel =>
      have hvalue := hx (level + 1) fuel (indentedItems (level + 1) false [] ++
        (newline level ++ ']' :: rest)) (by omega) (endsNumber_indentedItems _ _ _)
      rw [items?, hvalue]
      simp [indentedItems, skipBlanks_cons, isBlank]
  | cons y ys ih =>
    cases fuel with
    | zero => omega
    | succ fuel =>
      simp only [indentedItems, List.length_append] at hfuel
      have hvalue := hx (level + 1) fuel (indentedItems (level + 1) false (y :: ys) ++
        (newline level ++ ']' :: rest)) (by omega) (endsNumber_indentedItems _ _ _)
      have hitems := ih (hxs y List.mem_cons_self) (fun z hz => hxs z (List.mem_cons_of_mem y hz))
        fuel (by simp [newline] at hfuel ⊢; omega)
      rw [← items?_skipBlanks (skipBlanks_newline (level + 1) _)] at hitems
      rw [items?, hvalue]
      simp [indentedItems, skipBlanks_cons, isBlank, hitems]

theorem skipBlanks_quote (cs : List Char) : skipBlanks ('"' :: cs) = '"' :: cs :=
  skipBlanks_cons rfl cs

theorem skipBlanks_colon (cs : List Char) : skipBlanks (':' :: cs) = ':' :: cs :=
  skipBlanks_cons rfl cs

section Member

variable {key : String} {x : Json} (hx : ReadsBack x) {level fuel : Nat}
  (hfuel : (quoted key).length + (indented level x).length < fuel) {tail rest : List Char}
  (htail : EndsNumber tail)
include hx hfuel htail

theorem value?_member :
    value? none fuel (' ' :: (indented level x ++ tail)) = some (x, tail) := by
  rw [value?_skipBlanks (skipBlanks_space _)]
  exact hx level fuel tail (by omega) htail

/-- A member is read with its name, and then the others if a comma comes. -/
theorem members?_of_comma (h : skipBlanks tail = ',' :: rest) :
    members? none (fuel + 1) (quoted key ++ ':' :: ' ' :: (indented level x ++ tail)) =
      (members? none fuel rest).map fun ms => ((some key, x) :: ms.1, ms.2) := by
  have hkey := string?_quoted key (show (quoted key).length ≤ fuel + 1 by omega)
  have hvalue := value?_member hx hfuel htail
  rw [members?]
  simp only [quoted, List.cons_append, List.append_assoc, List.nil_append, skipBlanks_quote]
  simp only [hkey, skipBlanks_colon, hvalue, h, Option.bind_eq_bind, Option.bind_some]
  cases members? none fuel rest <;> rfl

theorem members?_of_brace (h : skipBlanks tail = '}' :: rest) :
    members? none (fuel + 1) (quoted key ++ ':' :: ' ' :: (indented level x ++ tail)) =
      some ([(some key, x)], rest) := by
  have hkey := string?_quoted key (show (quoted key).length ≤ fuel + 1 by omega)
  have hvalue := value?_member hx hfuel htail
  rw [members?]
  simp only [quoted, List.cons_append, List.append_assoc, List.nil_append, skipBlanks_quote]
  simp only [hkey, skipBlanks_colon, hvalue, h, Option.bind_eq_bind, Option.bind_some]
  rfl

end Member

/-- The members of an object are read one after the other, up to the brace. -/
theorem members?_indented (key : String) {x : Json} {ms : List (String × Json)} (hx : ReadsBack x)
    (hms : ∀ m ∈ ms, ReadsBack m.2) (level fuel : Nat)
    (hfuel : (quoted key).length + (indented (level + 1) x).length +
      (indentedMembers (level + 1) false ms).length + 1 < fuel) (rest : List Char) :
    members? none fuel (quoted key ++ ':' :: ' ' :: (indented (level + 1) x ++
      (indentedMembers (level + 1) false ms ++ (newline level ++ '}' :: rest)))) =
      some ((some key, x) :: ms.map fun m => (some m.1, m.2), rest) := by
  -- on the members that are left
  induction ms generalizing key x fuel with
  | nil =>
    cases fuel with
    | zero => omega
    | succ fuel =>
      exact members?_of_brace hx (by omega) (endsNumber_indentedMembers _ _ _)
        (by simp [indentedMembers, skipBlanks_cons, isBlank])
  | cons m ms ih =>
    cases fuel with
    | zero => omega
    | succ fuel =>
      simp only [indentedMembers, List.length_append, List.length_cons] at hfuel
      have hmembers := ih m.1 (hms m List.mem_cons_self)
        (fun n hn => hms n (List.mem_cons_of_mem m hn)) fuel (by omega)
      rw [← members?_skipBlanks (skipBlanks_newline (level + 1) _)] at hmembers
      have htail : skipBlanks (indentedMembers (level + 1) false (m :: ms) ++
          (newline level ++ '}' :: rest)) = ',' :: (newline (level + 1) ++ (quoted m.1 ++
            ':' :: ' ' :: (indented (level + 1) m.2 ++ (indentedMembers (level + 1) false ms ++
              (newline level ++ '}' :: rest))))) := by
        simp [indentedMembers, skipBlanks_cons, isBlank]
      rw [members?_of_comma hx (by omega) (endsNumber_indentedMembers _ _ _) htail, hmembers]
      rfl

theorem object_some (members : List (String × Json)) :
    object (members.map fun m => (some m.1, m.2)) = .obj members := by
  have hmap : (members.map fun m => (some m.1, m.2)).mapM
      (fun m : Option String × Json => m.1.map (·, m.2)) = some members := by
    induction members with
    | nil => rfl
    | cons m ms ih => simp [ih]
  rw [object, hmap]

namespace ReadsBack

/-- No value takes less than one step to read. -/
theorem of_succ {x : Json} (h : ∀ level fuel rest, (indented level x).length ≤ fuel →
    EndsNumber rest → value? none (fuel + 1) (indented level x ++ rest) = some (x, rest)) :
    ReadsBack x := by
  intro level fuel rest hfuel hrest
  cases fuel with
  | zero => omega
  | succ fuel => exact h level fuel rest (by omega) hrest

theorem int {n : Int} (lo : -Int.pow 2 63 ≤ n) (hi : n < Int.pow 2 64) : ReadsBack (.int n) := by
  refine of_succ fun level fuel rest _ hrest => ?_
  obtain ⟨c, cs, hcs, hc⟩ := exists_toString_cons n
  obtain ⟨x, hscan, hvalue⟩ := exists_scan?_int lo hi hrest
  show value? none (fuel + 1) ((toString n).toList ++ rest) = _
  rw [hcs] at hscan ⊢
  rw [List.cons_append, value?_number hc, ← List.cons_append, hscan]
  simp [hvalue]

theorem str (s : String) : ReadsBack (.str s) := by
  refine of_succ fun level fuel rest hfuel _ => ?_
  have hkey := string?_quoted s (show (quoted s).length ≤ fuel + 1 from Nat.le_succ_of_le hfuel) rest
  show value? none (fuel + 1) (quoted s ++ rest) = _
  rw [value?]
  simp [quoted, skipBlanks_cons, isBlank, hkey]

theorem arr {items : List Json} (hexact : ∀ x ∈ items, x.IsExact)
    (h : ∀ x ∈ items, ReadsBack x) : ReadsBack (.arr items) := by
  refine of_succ fun level fuel rest hfuel _ => ?_
  cases items with
  | nil => rfl
  | cons x xs =>
    obtain ⟨c, cs, hcs, hblank, hbracket, -⟩ :=
      (hexact x List.mem_cons_self).exists_indented_cons (level + 1)
    simp only [indented, indentedItems, List.length_cons, List.length_append] at hfuel
    have hitems := items?_indented (h x List.mem_cons_self)
      (fun y hy => h y (List.mem_cons_of_mem x hy)) level fuel (by omega) rest
    have hopen : skipBlanks (newline (level + 1) ++ (indented (level + 1) x ++
        (indentedItems (level + 1) false xs ++ (newline level ++ ']' :: rest)))) =
        indented (level + 1) x ++
          (indentedItems (level + 1) false xs ++ (newline level ++ ']' :: rest)) := by
      rw [skipBlanks_newline, hcs, List.cons_append, skipBlanks_cons hblank]
    have hvalue := value?_items hopen (by simpa [hcs] using hbracket) fuel
    rw [hitems] at hvalue
    simpa [indented, indentedItems] using hvalue

theorem obj {members : List (String × Json)} (h : ∀ m ∈ members, ReadsBack m.2) :
    ReadsBack (.obj members) := by
  refine of_succ fun level fuel rest hfuel _ => ?_
  cases members with
  | nil => rfl
  | cons m ms =>
    simp only [indented, indentedMembers, List.length_cons, List.length_append] at hfuel
    have hmembers := members?_indented m.1 (h m List.mem_cons_self)
      (fun n hn => h n (List.mem_cons_of_mem m hn)) level fuel (by omega) rest
    have hopen : skipBlanks (newline (level + 1) ++ (quoted m.1 ++ ':' :: ' ' ::
        (indented (level + 1) m.2 ++ (indentedMembers (level + 1) false ms ++
          (newline level ++ '}' :: rest))))) =
        quoted m.1 ++ ':' :: ' ' :: (indented (level + 1) m.2 ++
          (indentedMembers (level + 1) false ms ++ (newline level ++ '}' :: rest))) := by
      rw [skipBlanks_newline]
      exact skipBlanks_cons rfl _
    have hvalue := value?_members hopen (by simp [quoted]) fuel
    rw [hmembers] at hvalue
    have hobject := object_some (m :: ms)
    rw [List.map_cons] at hobject
    simpa [indented, indentedMembers, hobject] using hvalue

end ReadsBack

theorem IsExact.readsBack {x : Json} (h : x.IsExact) : ReadsBack x := by
  induction h with
  | null => exact .of_succ fun _ _ _ _ _ => rfl
  | bool b => exact .of_succ fun _ _ _ _ _ => by cases b <;> rfl
  | int lo hi => exact .int lo hi
  | str s => exact .str s
  | arr h ih => exact .arr h ih
  | obj _ ih => exact .obj ih

/-- What was printed is read back. -/
theorem IsExact.read?_pretty {x : Json} (h : x.IsExact) : read? x.pretty = some x := by
  have hvalue := h.readsBack 0 (2 * x.pretty.length + 2) [] (by rw [pretty]; omega) endsNumber_nil
  rw [List.append_nil] at hvalue
  unfold read?
  rw [show value? none (2 * x.pretty.length + 2) x.pretty = some (x, []) from hvalue]
  rfl

end SheetSync.Json
