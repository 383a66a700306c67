/-!
Reading bytes as UTF-8. Bytes that are no text are not refused: each longest run of them that begins
like a character is one gap in the text, which goes on right after it.
-/
namespace SheetSync.Text.Utf8

/-- The beginning of a character: its code so far, how many bytes follow the next one, and the bytes
that the next one is between. -/
structure Partial where
  code : Nat
  after : Nat
  low : Nat
  high : Nat

/-- The beginning of a character of several bytes. The second byte is restricted where the code
would be a surrogate, too large, or fit into fewer bytes. -/
def Partial.start? (b : Nat) : Option Partial :=
  if b < 0xC2 then none
  else if b < 0xE0 then some ⟨b - 0xC0, 0, 0x80, 0xBF⟩
  else if b = 0xE0 then some ⟨0, 1, 0xA0, 0xBF⟩
  else if b = 0xED then some ⟨0xD, 1, 0x80, 0x9F⟩
  else if b < 0xF0 then some ⟨b - 0xE0, 1, 0x80, 0xBF⟩
  else if b = 0xF0 then some ⟨0, 2, 0x90, 0xBF⟩
  else if b < 0xF4 then some ⟨b - 0xF0, 2, 0x80, 0xBF⟩
  else if b = 0xF4 then some ⟨4, 2, 0x80, 0x8F⟩
  else none

/-- What a byte comes to that does not go on with a character: one, a gap, or the beginning of a
character. -/
def lead (b : Nat) : List (Option Char) × Option Partial :=
  if b < 0x80 then ([some (Char.ofNat b)], none)
  else match Partial.start? b with
    | some p => ([], some p)
    | none => ([none], none)

/-- What a byte comes to after the beginning of a character, if there is any. -/
def step (p : Option Partial) (b : Nat) : List (Option Char) × Option Partial :=
  match p with
  | none => lead b
  | some p =>
    if p.low ≤ b ∧ b ≤ p.high then
      let code := p.code * 0x40 + (b - 0x80)
      match p.after with
      | 0 => ([some (Char.ofNat code)], none)
      | k + 1 => ([], some ⟨code, k, 0x80, 0xBF⟩)
    else
      let (cs, p) := lead b
      (none :: cs, p)

/-- The characters and gaps that bytes stand for, after the beginning of a character if there is
any. -/
def decodeFrom (p : Option Partial) : List UInt8 → List (Option Char)
  | [] => if p.isSome then [none] else []
  | b :: bs =>
    let (cs, p) := step p b.toNat
    cs ++ decodeFrom p bs

/-- The characters and gaps that bytes stand for. -/
def decode (bytes : List UInt8) : List (Option Char) := decodeFrom none bytes

/-- Text with a character for each gap. -/
def filled (c : Char) (cs : List (Option Char)) : List Char := cs.map (·.getD c)

end SheetSync.Text.Utf8
