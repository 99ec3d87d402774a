/-!
The seeded generator behind every draw: a linear congruential sequence of 48-bit words whose high
bits are handed out. Equal seeds give equal draws for ever, so a lost answer key can be made again.
-/

namespace ExamVariants

/-- The state: one word below `2 ^ 48`. -/
@[ext] structure Generator where
  word : UInt64
  word_lt : word.toNat < 0x1000000000000

namespace Generator

def multiplier : UInt64 := 0x5DEECE66D

def increment : UInt64 := 0xB

def mask : UInt64 := 0xFFFFFFFFFFFF

def ofWord (w : UInt64) : Generator where
  word := w &&& mask
  word_lt := by
    rw [UInt64.toNat_and]
    exact Nat.lt_of_le_of_lt Nat.and_le_right (by decide)

theorem toNat_ofWord (w : UInt64) : (ofWord w).word.toNat = w.toNat % 0x1000000000000 := by
  rw [ofWord, UInt64.toNat_and]
  exact Nat.and_two_pow_sub_one_eq_mod w.toNat 48

def ofSeed (seed : Int64) : Generator :=
  ofWord (seed.toUInt64 ^^^ multiplier)

/-- The seed as eight bytes, least significant first. -/
def ofSeedBytes (bytes : List UInt8) : Generator :=
  ofSeed (bytes.foldr (fun b w => (w <<< 8) ||| b.toUInt64) 0 : UInt64).toInt64

def step (g : Generator) : Generator :=
  ofWord (g.word * multiplier + increment)

/-- The highest `bits` bits of the state as a signed word. -/
def top (g : Generator) (bits : Nat) : Int32 :=
  (g.word >>> UInt64.ofNat (48 - bits)).toUInt32.toInt32

/-- Advances, then reads the highest `bits` bits. -/
def draw (g : Generator) (bits : Nat) : Int32 × Generator :=
  (g.step.top bits, g.step)

/-- A 31-bit draw is refused when its block of `bound` values is cut off by the end of the range,
which shows as an overflow of the signed sum. -/
def accepts (bound draw : Int32) : Bool :=
  draw - draw % bound + (bound - 1) ≥ 0

/-- The remainder of the first accepted draw among the next `fuel`. -/
def remainder (bound : Int32) : Nat → Generator → Int32 × Generator
  | 0, g => (0, g)
  | fuel + 1, g =>
    let (u, h) := g.draw 31
    if accepts bound u then (u % bound, h) else remainder bound fuel h

/-- A uniform value below a positive `bound`. A power of two takes the high bits of one draw; any
other bound takes remainders, and within one period of `2 ^ 48` states some draw is accepted. -/
def nextInt (g : Generator) (bound : Int32) : Int32 × Generator :=
  if bound &&& (bound - 1) = 0 then
    let (r, h) := g.draw 31
    (((bound.toInt64 * r.toInt64) >>> 31).toInt32, h)
  else remainder bound 0x1000000000000 g

def maxBound : Nat := 0x7FFFFFFF

/-- A uniform index below `len`; a length above `maxBound` draws below `maxBound`. -/
def nextIndex (g : Generator) (len : Nat) : Nat × Generator :=
  let (i, h) := g.nextInt (Int32.ofNat (min len maxBound))
  (i.toNatClampNeg, h)

def nextWord32 (g : Generator) : UInt32 × Generator :=
  let (r, h) := g.draw 32
  (r.toUInt32, h)

/-- Two draws: the first is the high half, and the second is added with its sign. -/
def nextWord64 (g : Generator) : UInt64 × Generator :=
  let (high, h) := g.draw 32
  let (low, k) := h.draw 32
  ((high.toInt64 <<< 32 + low.toInt64).toUInt64, k)

/-- The bytes of a word, least significant first. -/
def littleEndian (w : UInt32) : List UInt8 :=
  [w.toUInt8, (w >>> 8).toUInt8, (w >>> 16).toUInt8, (w >>> 24).toUInt8]

/-- Four bytes a draw; a last draw that is needed in part is spent in whole. -/
def nextBytes (g : Generator) : Nat → List UInt8 × Generator
  | 0 => ([], g)
  | n + 4 =>
    let (w, h) := g.nextWord32
    let (rest, k) := nextBytes h n
    (littleEndian w ++ rest, k)
  | n =>
    let (w, h) := g.nextWord32
    ((littleEndian w).take n, h)

end Generator

end ExamVariants
