import JsonQuery.Number.Shortest

namespace JsonQuery

-- A number of a document. Integers between `-2 ^ 63` and `2 ^ 64 - 1` are kept exactly when they
-- are written without fraction and exponent, all others are binary64 numbers.
inductive Number where
  | int (n : Int)
  | float (x : Finite)
  deriving DecidableEq

-- How a decimal is written: positionally if its first digit lies between the places `10 ^ low` and
-- `10 ^ high`, always with a point, and otherwise with an exponent that shows its sign.
structure FloatFormat where
  low  : Int
  high : Int

def Number.format : FloatFormat where
  low  := -5
  high := 15

namespace FloatFormat

-- The digits without zeros at their end.
def strip (digits : List Char) : List Char := (digits.reverse.dropWhile (· == '0')).reverse

def zeros (n : Nat) : List Char := List.replicate n '0'

-- Digits with the first one at the place `10 ^ first`.
def positional (digits : List Char) (first : Int) : List Char :=
  if first < 0 then
    '0' :: '.' :: (zeros (-first - 1).toNat ++ digits)
  else
    let whole := first.toNat + 1
    let fraction := digits.drop whole
    digits.take whole ++ zeros (whole - digits.length) ++
      '.' :: (if fraction.isEmpty then ['0'] else fraction)

def scientific (digits : List Char) (first : Int) : List Char :=
  let sign := if first < 0 then '-' else '+'
  digits.take 1 ++ (if digits.length ≤ 1 then [] else '.' :: digits.drop 1) ++
    'e' :: sign :: Nat.toDigits 10 first.natAbs

def write (f : FloatFormat) (d : Decimal) : List Char :=
  let digits := Nat.toDigits 10 d.digits
  let first := d.exp + (digits.length - 1 : Nat)
  if f.low ≤ first ∧ first ≤ f.high then positional (strip digits) first
  else scientific (strip digits) first

end FloatFormat

def integerText (n : Int) : List Char :=
  if n < 0 then '-' :: Nat.toDigits 10 n.natAbs else Nat.toDigits 10 n.natAbs

namespace Number

def floatText (x : Finite) : List Char :=
  let magnitude := if x.isZero then ['0', '.', '0'] else Number.format.write x.shortest
  if x.neg then '-' :: magnitude else magnitude

def text : Number → List Char
  | int n   => integerText n
  | float x => floatText x

-- The nearest binary64 number, through which numbers of both kinds are compared.
def approx : Number → Binary64
  | int n   => .ofInt n
  | float x => .finite x

-- A computed number: integral results in the range of 64 bit integers become integers, the upper
-- end of the range included, and what is not finite is no number of a document.
def ofBinary64? (b : Binary64) : Option Number :=
  match b with
  | .finite x =>
    match x.toInt? with
    | some n =>
      if -0x8000000000000000 ≤ n ∧ n ≤ 0x8000000000000000 then
        some (.int (min n 0x7FFFFFFFFFFFFFFF))
      else
        some (.float x)
    | none => some (.float x)
  | _ => none

-- The 64 bit signed integer that the number is, if it is one.
def toInt64? : Number → Option Int
  | int n   => if -0x8000000000000000 ≤ n ∧ n < 0x8000000000000000 then some n else none
  | float _ => none

end Number

end JsonQuery
