namespace ExamVariants.Decimal

def digitValue (c : Char) : Nat := c.toNat - '0'.toNat

def natOfDigits (ds : List Char) : Nat :=
  ds.foldl (fun n c => n * 10 + digitValue c) 0

def hexValue? (c : Char) : Option Nat :=
  if '0' ≤ c && c ≤ '9' then some (c.toNat - '0'.toNat)
  else if 'a' ≤ c && c ≤ 'f' then some (c.toNat - 'a'.toNat + 10)
  else if 'A' ≤ c && c ≤ 'F' then some (c.toNat - 'A'.toNat + 10)
  else none

/-- The floating-point number nearest to `digits * 10 ^ exponent`; infinite beyond the greatest. -/
def nearest (digits : Nat) (exponent : Int) : Float :=
  let length : Int := (Nat.toDigits 10 digits).length
  if digits = 0 || length + exponent < -330 then 0
  else if length + exponent > 310 then 1 / 0
  else if exponent < 0 then .ofScientific digits true exponent.natAbs
  else .ofScientific digits false exponent.natAbs

/-- A power of ten behind an `e`, with a sign or without; nothing is no power. -/
def exponentOf? : List Char → Option Int
  | [] => some 0
  | c :: cs =>
    if c = 'e' || c = 'E' then
      let (negative, ds) := match cs with
        | '-' :: ds => (true, ds)
        | '+' :: ds => (false, ds)
        | ds => (false, ds)
      if ds.isEmpty || !ds.all Char.isDigit then none
      else
        let n : Int := natOfDigits ds
        some (if negative then -n else n)
    else none

/-- A number of digits with at most one point among or around them, then a power of ten. -/
def unsigned? (cs : List Char) : Option Float :=
  let whole := cs.takeWhile Char.isDigit
  let rest := cs.dropWhile Char.isDigit
  let (places, rest) := match rest with
    | '.' :: rest => (rest.takeWhile Char.isDigit, rest.dropWhile Char.isDigit)
    | rest => ([], rest)
  if whole.isEmpty && places.isEmpty then none
  else (exponentOf? rest).map fun e => nearest (natOfDigits (whole ++ places)) (e - places.length)

/-- The whole number nearest to `a / b`; a half goes to the even neighbour. -/
def roundedQuotient (a b : Nat) : Nat :=
  let below := a / b
  let rest := a % b
  if 2 * rest < b || (2 * rest = b && below % 2 = 0) then below else below + 1

theorem roundedQuotient_nearest (a : Nat) {b : Nat} (hb : 0 < b) :
    2 * a ≤ (2 * roundedQuotient a b + 1) * b ∧ 2 * roundedQuotient a b * b ≤ 2 * a + b := by
  have hdiv := Nat.div_add_mod a b
  have hrest := Nat.mod_lt a hb
  have hround : roundedQuotient a b = a / b ∧ 2 * (a % b) ≤ b ∨
      roundedQuotient a b = a / b + 1 ∧ b ≤ 2 * (a % b) := by
    simp only [roundedQuotient, Bool.or_eq_true, Bool.and_eq_true, decide_eq_true_eq]
    split <;> omega
  rw [Nat.add_mul, Nat.mul_assoc, Nat.mul_comm _ b]
  rcases hround with ⟨hround, hhalf⟩ | ⟨hround, hhalf⟩
  · rw [hround]
    omega
  · rw [hround, Nat.mul_add]
    omega

/-- The floating-point number nearest to `a / b`, as a mantissa of 53 bits over a power of two. -/
def floatQuotient (a b : Nat) : Nat × Nat :=
  let shift := 53 + b.log2
  let spare := (a <<< shift / b).log2 - 52
  (roundedQuotient (a <<< shift) (b <<< spare), shift - spare)

end ExamVariants.Decimal
