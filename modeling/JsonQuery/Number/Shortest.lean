import JsonQuery.Number.Binary64

namespace JsonQuery

-- A positive decimal fraction: `digits * 10 ^ exp`.
structure Decimal where
  digits : Nat
  exp    : Int
  deriving DecidableEq, Inhabited

namespace Finite

-- Everything here is measured in quarters of a unit, so that the ends of the interval of reals
-- that round to a number are whole.
def quarters (x : Finite) : Nat := 4 * x.magnitude

-- Half of the distance to the next larger number.
def above (x : Finite) : Nat := 2 <<< x.exp

-- Half of the distance to the next smaller number, which is closer below a power of two.
def below (x : Finite) : Nat :=
  if x.mant = 0x10000000000000 ∧ x.exp ≠ 0 then 1 <<< x.exp else 2 <<< x.exp

-- A decimal is compared with a magnitude of `n` quarters after both were multiplied with the power
-- of ten that makes them whole.
def scaleOf (exp : Int) : Nat := Binary64.powerOfTen (-exp).toNat

def scaled (d : Decimal) : Nat := d.digits * Binary64.powerOfTen d.exp.toNat * (4 * one)

-- Whether reading the decimal gives the number back. The ends of the interval do so if the
-- significand is even.
def readsBack (x : Finite) (d : Decimal) : Bool :=
  let low  := (x.quarters - x.below) * scaleOf d.exp
  let high := (x.quarters + x.above) * scaleOf d.exp
  if x.mant % 2 = 0 then low ≤ scaled d && scaled d ≤ high else low < scaled d && scaled d < high

-- The position of the first digit: the exponent `e` with `10 ^ e ≤ x < 10 ^ (e + 1)`. The smallest
-- number is far above `10 ^ -400`.
def leadingExponent (x : Finite) : Int :=
  (Nat.toDigits 10 (x.magnitude * Binary64.powerOfTen 400 / one)).length - 401

-- The number cut after the decimal place `exp`.
def cutAt (x : Finite) (exp : Int) : Nat :=
  x.quarters * scaleOf exp / (4 * one * Binary64.powerOfTen exp.toNat)

-- The decimal with its last digit at `exp` that reads back, if there is one. Of two the nearer one
-- is taken, and of two equally near ones the even one.
def nearestAt (x : Finite) (exp : Int) : Option Decimal :=
  let lower : Decimal := ⟨x.cutAt exp, exp⟩
  let upper : Decimal := ⟨x.cutAt exp + 1, exp⟩
  match x.readsBack lower, x.readsBack upper with
  | true, true =>
    let twice := 2 * x.quarters * scaleOf exp
    let middle := scaled lower + scaled upper
    if twice < middle ∨ (twice = middle ∧ lower.digits % 2 = 0) then some lower else some upper
  | true, false => some lower
  | false, true => some upper
  | false, false => none

-- The decimal with the fewest digits that reads back as the nonzero number. Seventeen digits are
-- always enough.
def shortest (x : Finite) : Decimal :=
  let first := x.leadingExponent
  let found := (List.range 17).findSome? fun (n : Nat) => x.nearestAt (first - n)
  found.getD ⟨x.cutAt (first - 16), first - 16⟩

theorem readsBack_of_nearestAt {x : Finite} {exp : Int} {d : Decimal}
    (h : x.nearestAt exp = some d) : x.readsBack d = true ∧ d.exp = exp := by
  simp only [nearestAt] at h
  split at h
  case _ h₁ h₂ =>
    split at h <;> cases h
    · exact ⟨h₁, rfl⟩
    · exact ⟨h₂, rfl⟩
  case _ h₁ _ => cases h; exact ⟨h₁, rfl⟩
  case _ _ h₂ => cases h; exact ⟨h₂, rfl⟩
  case _ => cases h

end Finite

end JsonQuery
