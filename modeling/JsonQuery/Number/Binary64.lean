namespace JsonQuery

-- A finite binary64 number. Its magnitude is `mant * 2 ^ exp` units, a unit being the smallest
-- positive number `2 ^ -1074`. The last three fields single out one form for every number, with a
-- significand of 53 binary digits if the exponent is not zero. So equality of structures is
-- equality of representations; only zero has two of them.
structure Finite where
  neg       : Bool
  mant      : Nat
  exp       : Nat
  mant_lt   : mant < 0x20000000000000
  exp_le    : exp ≤ 2045
  canonical : exp = 0 ∨ 0x10000000000000 ≤ mant
  deriving DecidableEq

-- A binary64 number of any kind. All values that are not a number are the same here.
inductive Binary64 where
  | finite (x : Finite)
  | infinite (neg : Bool)
  | nan
  deriving DecidableEq

-- The integer nearest to `num / den`. A half goes to the even neighbour.
def roundHalfEven (num den : Nat) : Nat :=
  let q := num / den
  let r := num % den
  if 2 * r < den ∨ (2 * r = den ∧ q % 2 = 0) then q else q + 1

theorem le_roundHalfEven (num den : Nat) : num / den ≤ roundHalfEven num den := by
  simp only [roundHalfEven]
  split <;> omega

theorem roundHalfEven_le (num den : Nat) : roundHalfEven num den ≤ num / den + 1 := by
  simp only [roundHalfEven]
  split <;> omega

namespace Finite

def zero (neg : Bool) : Finite where
  neg       := neg
  mant      := 0
  exp       := 0
  mant_lt   := by decide
  exp_le    := by decide
  canonical := .inl rfl

-- How many units one is.
def one : Nat := 1 <<< 1074

-- The magnitude in units.
def magnitude (x : Finite) : Nat := x.mant <<< x.exp

-- The number itself in units. Both zeros give zero.
def units (x : Finite) : Int := if x.neg then -(x.magnitude : Int) else x.magnitude

def negate (x : Finite) : Finite := { x with neg := !x.neg }

def isZero (x : Finite) : Bool := x.mant == 0

theorem units_zero (neg : Bool) : (zero neg).units = 0 := by
  cases neg <;> rfl

theorem units_negate (x : Finite) : x.negate.units = -x.units := by
  cases h : x.neg <;> simp [units, negate, magnitude, h]

theorem magnitude_eq_natAbs (x : Finite) : x.magnitude = x.units.natAbs := by
  simp only [units]
  split <;> simp

-- Whether the number is an integer, and which one.
def toInt? (x : Finite) : Option Int :=
  if x.magnitude % one = 0 then
    some (if x.neg then -((x.magnitude / one : Nat) : Int) else (x.magnitude / one : Nat))
  else
    none

-- Numeric order with the negative zero below the positive one.
def totalCompare (x y : Finite) : Ordering :=
  (compare x.units y.units).then (compare (!x.neg) (!y.neg))

end Finite

namespace Binary64

-- The exponent that leaves 53 digits of a magnitude of `n` units, or zero if it has fewer.
def exponentOf (n : Nat) : Nat := Nat.log2 n - 52

theorem shiftRight_exponentOf_lt (n : Nat) : n >>> exponentOf n < 0x20000000000000 := by
  show n >>> exponentOf n < 2 ^ 53
  rw [Nat.shiftRight_eq_div_pow, Nat.div_lt_iff_lt_mul (Nat.two_pow_pos _), ← Nat.pow_add]
  refine Nat.lt_of_lt_of_le (Nat.lt_log2_self) (Nat.pow_le_pow_right (by decide) ?_)
  simp only [exponentOf]
  omega

theorem le_shiftRight_exponentOf {n : Nat} (h : exponentOf n ≠ 0) :
    0x10000000000000 ≤ n >>> exponentOf n := by
  show 2 ^ 52 ≤ n >>> exponentOf n
  rw [Nat.shiftRight_eq_div_pow, Nat.le_div_iff_mul_le (Nat.two_pow_pos _), ← Nat.pow_add]
  have hn : n ≠ 0 := by
    rintro rfl
    simp [exponentOf] at h
  refine Nat.le_trans (Nat.pow_le_pow_right (by decide) ?_) (Nat.log2_self_le hn)
  simp only [exponentOf] at h ⊢
  omega

-- The number of `mant * 2 ^ exp` units, or infinity beyond the largest finite one.
def make (neg : Bool) (mant exp : Nat) (h : mant < 0x20000000000000)
    (hc : exp = 0 ∨ 0x10000000000000 ≤ mant) : Binary64 :=
  if he : exp ≤ 2045 then .finite ⟨neg, mant, exp, h, he, hc⟩ else .infinite neg

-- The number nearest to `num / den` units. A half goes to the even neighbour, and what is too
-- large becomes infinite. Every operation below is exact arithmetic followed by this.
def round (neg : Bool) (num den : Nat) : Binary64 :=
  let exp := exponentOf (num / den)
  let mant := roundHalfEven num (den <<< exp)
  have hm : mant ≤ 0x20000000000000 := by
    refine Nat.le_trans (roundHalfEven_le _ _) ?_
    rw [Nat.shiftLeft_eq, ← Nat.div_div_eq_div_mul, ← Nat.shiftRight_eq_div_pow]
    exact shiftRight_exponentOf_lt _
  have hc : exp = 0 ∨ 0x10000000000000 ≤ mant := by
    by_cases h : exp = 0
    · exact .inl h
    · refine .inr (Nat.le_trans (le_shiftRight_exponentOf h) ?_)
      rw [Nat.shiftRight_eq_div_pow, Nat.div_div_eq_div_mul, ← Nat.shiftLeft_eq]
      exact le_roundHalfEven _ _
  if h : mant < 0x20000000000000 then
    make neg mant exp h hc
  else
    make neg 0x10000000000000 (exp + 1) (by decide) (.inr (Nat.le_refl _))

def zero : Binary64 := .finite (.zero false)

-- The number nearest to an integer.
def ofInt (n : Int) : Binary64 := round (n < 0) (n.natAbs * Finite.one) 1

def powerOfTen (n : Nat) : Nat := Nat.pow 10 n

-- The number nearest to `digits * 10 ^ exp`. Exponents far out of range are not computed.
def ofDecimal (neg : Bool) (digits : Nat) (exp : Int) : Binary64 :=
  if digits = 0 then .finite (.zero neg)
  else if 400 < exp then .infinite neg
  else if exp + (Nat.toDigits 10 digits).length < -400 then .finite (.zero neg)
  else if 0 ≤ exp then round neg (digits * powerOfTen exp.toNat * Finite.one) 1
  else round neg (digits * Finite.one) (powerOfTen (-exp).toNat)

def isNegative : Binary64 → Bool
  | .finite x   => x.neg
  | .infinite n => n
  | .nan        => false

def negate : Binary64 → Binary64
  | .finite x   => .finite x.negate
  | .infinite n => .infinite !n
  | .nan        => .nan

-- A sum of zero is negative only if both terms are.
def add : Binary64 → Binary64 → Binary64
  | .finite x, .finite y =>
    let sum := x.units + y.units
    if sum = 0 then .finite (.zero (x.neg && y.neg)) else round (sum < 0) sum.natAbs 1
  | .infinite a, .infinite b => if a = b then .infinite a else .nan
  | .infinite a, .finite _ => .infinite a
  | .finite _, .infinite b => .infinite b
  | _, _ => .nan

def mul : Binary64 → Binary64 → Binary64
  | .finite x, .finite y => round (x.neg != y.neg) (x.magnitude * y.magnitude) Finite.one
  | .infinite a, .infinite b => .infinite (a != b)
  | .infinite a, .finite y => if y.isZero then .nan else .infinite (a != y.neg)
  | .finite x, .infinite b => if x.isZero then .nan else .infinite (x.neg != b)
  | _, _ => .nan

-- The quotient by `10 ^ n`, the power being rounded first.
def divPowerOfTen (x : Binary64) (n : Nat) : Binary64 :=
  match x, ofDecimal false 1 n with
  | .finite x, .finite y => round x.neg (x.magnitude * Finite.one) y.magnitude
  | .finite x, .infinite _ => .finite (.zero x.neg)
  | x, _ => x

-- The product with `10 ^ n`, the power being rounded first.
def mulPowerOfTen (x : Binary64) (n : Nat) : Binary64 := x.mul (ofDecimal false 1 n)

-- Numeric order. What is not a number is not ordered.
def compare? : Binary64 → Binary64 → Option Ordering
  | .finite x, .finite y => some (compare x.units y.units)
  | .infinite a, .infinite b => some (compare (!a) (!b))
  | .infinite a, .finite _ => some (if a then .lt else .gt)
  | .finite _, .infinite b => some (if b then .gt else .lt)
  | _, _ => none

-- Numeric equality: the zeros are equal, and what is not a number equals nothing.
def equals (x y : Binary64) : Bool := x.compare? y == some .eq

-- A total order: by value, the negative zero below the positive one and what is not a number last.
def totalCompare : Binary64 → Binary64 → Ordering
  | .finite x, .finite y => x.totalCompare y
  | .infinite a, .infinite b => compare (!a) (!b)
  | .infinite a, .finite _ => if a then .lt else .gt
  | .finite _, .infinite b => if b then .gt else .lt
  | .nan, .nan => .eq
  | .nan, _ => .gt
  | _, .nan => .lt

def signBit (neg : Bool) : Nat := if neg then 0x8000000000000000 else 0

-- The interchange format: sign, biased exponent and trailing significand in 64 bits.
def toBits : Binary64 → Nat
  | .finite x =>
    let exp := if x.mant < 0x10000000000000 then 0 else x.exp + 1
    signBit x.neg + exp <<< 52 + x.mant % 0x10000000000000
  | .infinite n => signBit n + 0x7FF0000000000000
  | .nan => 0x7FF8000000000000

theorem equals_finite {x y : Finite} :
    (Binary64.finite x).equals (.finite y) = true ↔ x.units = y.units := by
  simp [equals, compare?]

end Binary64

end JsonQuery
