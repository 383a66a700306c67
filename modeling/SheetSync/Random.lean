/-!
A reproducible stream of random numbers: the keystream of the ChaCha cipher with twelve rounds under
a key that is spread out of a seed, read in words of 32 bits. Numbers below a bound are the high
half of a product, widened by a second word where the low half could carry.
-/
namespace SheetSync

/-- The sixteen words of a block. -/
abbrev Block := Vector UInt32 16

namespace Block

def rotateLeft (x : UInt32) (n : UInt32) : UInt32 := (x <<< n) ||| (x >>> (32 - n))

/-- Stirs four words of a block into each other. -/
def quarter (b : Block) (i j k l : Fin 16) : Block :=
  let step (b : Block) (i j k : Fin 16) (n : UInt32) : Block :=
    let b := b.set i (b[i] + b[j])
    b.set k (rotateLeft (b[k] ^^^ b[i]) n)
  let b := step b i j l 16
  let b := step b k l j 12
  let b := step b i j l 8
  step b k l j 7

/-- One round over the columns and one over the diagonals. -/
def doubleRound (b : Block) : Block :=
  let b := b.quarter 0 4 8 12
  let b := b.quarter 1 5 9 13
  let b := b.quarter 2 6 10 14
  let b := b.quarter 3 7 11 15
  let b := b.quarter 0 5 10 15
  let b := b.quarter 1 6 11 12
  let b := b.quarter 2 7 8 13
  b.quarter 3 4 9 14

def rounds : Nat → Block → Block
  | 0, b => b
  | n + 1, b => rounds n b.doubleRound

/-- The words that every block starts with. -/
def constants : Vector UInt32 4 := #v[0x61707865, 0x3320646e, 0x79622d32, 0x6b206574]

/-- The block of a key at a place in the stream. -/
def start (key : Vector UInt32 8) (counter : UInt64) : Block :=
  let place : Vector UInt32 4 := #v[counter.toUInt32, (counter >>> 32).toUInt32, 0, 0]
  constants ++ key ++ place

/-- The words of the keystream at a place. -/
def keystream (key : Vector UInt32 8) (counter : UInt64) : Block :=
  let b := start key counter
  (rounds 6 b).zipWith (· + ·) b

end Block

/-- The key, the block to come, and the words of the last one that are not yet read. -/
structure Random where
  key : Vector UInt32 8
  counter : UInt64 := 0
  words : List UInt32 := []

namespace Random

/-- One step of the generator that spreads a seed, and the word that it gives. -/
def spread (state : UInt64) : UInt64 × UInt32 :=
  let state := state * 6364136223846793005 + 11634580027462260723
  let mixed := (((state >>> 18) ^^^ state) >>> 27).toUInt32
  let turn := (state >>> 59).toUInt32
  (state, (mixed >>> turn) ||| (mixed <<< ((32 - turn) &&& 31)))

def spreadKey : Nat → UInt64 → List UInt32
  | 0, _ => []
  | n + 1, state =>
    let (state, word) := spread state
    word :: spreadKey n state

def ofSeed (seed : UInt64) : Random where
  key := Vector.ofFn fun i => (spreadKey 8 seed)[i.val]?.getD 0

def next32 (r : Random) : Nat × Random :=
  match r.words with
  | w :: rest => (w.toNat, { r with words := rest })
  | [] =>
    match (Block.keystream r.key r.counter).toList with
    | w :: rest => (w.toNat, { r with counter := r.counter + 1, words := rest })
    | [] => (0, r)

/-- Two words, the low one first. -/
def next64 (r : Random) : Nat × Random :=
  let (low, r) := r.next32
  let (high, r) := r.next32
  (low + high * Nat.pow 2 32, r)

/-- A number below `n` from words of `width` bits. -/
def scaled (width : Nat) (next : Random → Nat × Random) (n : Nat) (r : Random) : Nat × Random :=
  let (w, r) := next r
  let result := w * n / Nat.pow 2 width
  let low := w * n % Nat.pow 2 width
  if Nat.pow 2 width - n < low then
    let (w, r) := next r
    let carried := w * n / Nat.pow 2 width
    (if Nat.pow 2 width ≤ low + carried then result + 1 else result, r)
  else (result, r)

/-- A number below `n`; none if there is no such number. -/
def below? (n : Nat) (r : Random) : Option (Nat × Random) :=
  if n = 0 then none else some (scaled 32 next32 n r)

/-- A number from `lo` to `hi`. -/
def between (lo hi : Int) (r : Random) : Int × Random :=
  let (n, r) := scaled 64 next64 (hi - lo + 1).toNat r
  (lo + n, r)

/-- True for so many of the `2 ^ 64` numbers. -/
def chance (favourable : Nat) (r : Random) : Bool × Random :=
  let (n, r) := r.next64
  (n < favourable, r)

end Random

end SheetSync
