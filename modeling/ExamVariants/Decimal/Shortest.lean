namespace ExamVariants.Decimal

/-- The positive number `mantissa * 2 ^ exponent`; `narrow` marks a least mantissa, below which the
neighbours lie twice as close. -/
structure Binary where
  mantissa : Nat
  exponent : Int
  narrow : Bool
  deriving DecidableEq, Repr

namespace Binary

/-- The leading bit of a mantissa of 53 bits, which a pattern leaves out. -/
def implicitBit : Nat := 0x10000000000000

/-- The magnitude that a 64-bit pattern stands for; none for a zero. -/
def ofBits? (bits : UInt64) : Option Binary :=
  let fraction : Nat := bits.toNat % implicitBit
  let scale : Nat := bits.toNat / implicitBit % 2048
  if scale = 0 then
    if fraction = 0 then none else some ⟨fraction, -1074, false⟩
  else some ⟨implicitBit + fraction, Int.ofNat scale - 1075, fraction = 0 && scale > 1⟩

/-- The lower end of the interval of numbers that round to `b`, `b` itself and the upper end, in
quarters of its unit. -/
def quarters (b : Binary) : Nat × Nat × Nat :=
  (4 * b.mantissa - (if b.narrow then 1 else 2), 4 * b.mantissa, 4 * b.mantissa + 2)

/-- The ends belong to the interval when the mantissa is even. -/
def closed (b : Binary) : Bool := b.mantissa % 2 = 0

/-- `n` quarters of the unit over the grid step `10 ^ k`, as numerator and denominator. -/
def overStep (b : Binary) (n : Nat) (k : Int) : Nat × Nat :=
  let e := b.exponent - 2
  (n * Nat.pow 2 e.toNat * Nat.pow 10 (-k).toNat, Nat.pow 2 (-e).toNat * Nat.pow 10 k.toNat)

/-- The multiple of `10 ^ k` that stands for `b`, if one lies in the interval. -/
def onGrid? (b : Binary) (k : Int) : Option Nat :=
  let (lo, mid, hi) := b.quarters
  let (lo, den) := b.overStep lo k
  let (mid, _) := b.overStep mid k
  let (hi, _) := b.overStep hi k
  let inside (d : Nat) : Bool :=
    if b.closed then lo ≤ d * den && d * den ≤ hi else lo < d * den && d * den < hi
  let below := mid / den
  let above := below + 1
  match inside below, inside above with
  | true, true =>
    let down := mid - below * den
    let up := above * den - mid
    if down < up || (down = up && below % 2 = 0) then some below else some above
  | true, false => some below
  | false, true => some above
  | false, false => none

/-- Tries the grids `10 ^ k`, `10 ^ (k - 1)`, …, `fuel` of them. -/
def firstHit (b : Binary) : Nat → Int → Nat × Int
  | 0, k => (0, k)
  | fuel + 1, k =>
    match b.onGrid? k with
    | some d => (d, k)
    | none => firstHit b fuel (k - 1)

/-- Digits and a power of ten. Seventeen digits always suffice, and the first grid is coarser than
the number. -/
def shortest (b : Binary) : Nat × Int :=
  let bitLength : Int := (Nat.log2 b.mantissa + 1 : Nat)
  firstHit b 24 ((bitLength + b.exponent) * 30103 / 100000 + 2)

end Binary

/-- How decimals are written: positional for exponents of the leading digit from `minPositional` up
to, and without, `endPositional`. -/
structure Layout where
  minPositional : Int
  endPositional : Int
  deriving Repr

/-- Digits without the zeros at their end, with the power of ten that they then carry. -/
def trimZeros : List Char → Int → List Char × Int
  | ds, k =>
    let kept := (ds.reverse.dropWhile (· == '0')).reverse
    (kept, k + (ds.length - kept.length : Nat))

/-- Writes `digits * 10 ^ k`. A positional number keeps at least one place behind the point; an
exponent always has its sign. -/
def Layout.write (l : Layout) (digits : Nat) (k : Int) : String :=
  let (ds, k) := trimZeros (toString digits).toList k
  let lead : Int := k + ds.length - 1
  let zeros (n : Int) : List Char := List.replicate n.toNat '0'
  if l.minPositional ≤ lead && lead < l.endPositional then
    if k ≥ 0 then String.ofList (ds ++ zeros k ++ ['.', '0'])
    else if lead ≥ 0 then
      let whole := (lead + 1).toNat
      String.ofList (ds.take whole ++ '.' :: ds.drop whole)
    else String.ofList ('0' :: '.' :: zeros (-lead - 1) ++ ds)
  else
    let point := if ds.length > 1 then ['.'] else []
    let sign := if lead < 0 then "-" else "+"
    String.ofList (ds.take 1 ++ point ++ ds.drop 1) ++ "e" ++ sign ++ toString lead.natAbs

/-- The shortest decimal text of a finite number. -/
def Layout.text (l : Layout) (x : Float) : String :=
  let bits := x.toBits
  let sign := if bits.toNat < 0x8000000000000000 then "" else "-"
  match Binary.ofBits? bits with
  | none => sign ++ "0.0"
  | some b =>
    let (digits, k) := b.shortest
    sign ++ l.write digits k

end ExamVariants.Decimal
