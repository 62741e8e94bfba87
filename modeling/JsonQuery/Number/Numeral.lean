import JsonQuery.Number.Basic

namespace JsonQuery

-- A number as it is written: a run of digits, perhaps a fraction and perhaps a power of ten. The
-- digits are kept as characters, as the value depends on how many of them there are.
structure Numeral where
  neg      : Bool
  whole    : List Char
  fraction : Option (List Char)
  exponent : Option Int
  deriving DecidableEq

namespace Numeral

def digitsOf (text : List Char) : List Char × List Char :=
  (text.takeWhile Char.isDigit, text.dropWhile Char.isDigit)

-- A fraction has at least one digit. Without a point there is none.
def fraction? : List Char → Option (Option (List Char) × List Char)
  | '.' :: rest =>
    let (digits, rest) := digitsOf rest
    if digits.isEmpty then none else some (some digits, rest)
  | rest => some (none, rest)

def exponentDigits? (neg : Bool) (text : List Char) : Option (Option Int × List Char) :=
  let (digits, rest) := digitsOf text
  let value : Int := Nat.ofDigitChars 10 digits 0
  if digits.isEmpty then none else some (some (if neg then -value else value), rest)

def exponent? : List Char → Option (Option Int × List Char)
  | c :: rest =>
    if c = 'e' ∨ c = 'E' then
      match rest with
      | '-' :: rest => exponentDigits? true rest
      | '+' :: rest => exponentDigits? false rest
      | rest        => exponentDigits? false rest
    else
      some (none, c :: rest)
  | [] => some (none, [])

-- The whole part has no leading zeros.
def whole? : List Char → Option (List Char × List Char)
  | '0' :: rest => some (['0'], rest)
  | c :: rest   => if c.isDigit then some (digitsOf (c :: rest)) else none
  | []          => none

-- Reads a numeral after its sign.
def read? (neg : Bool) (text : List Char) : Option (Numeral × List Char) := do
  let (whole, rest) ← whole? text
  let (fraction, rest) ← fraction? rest
  let (exponent, rest) ← exponent? rest
  return (⟨neg, whole, fraction, exponent⟩, rest)

-- Takes digits into a significand as long as it fits into 64 bits. What is left over is returned.
def absorb (significand : Nat) : List Char → Nat × List Char
  | [] => (significand, [])
  | c :: rest =>
    let next := 10 * significand + (c.toNat - '0'.toNat)
    if next < 0x10000000000000000 then absorb next rest else (significand, c :: rest)

-- Division by a power of ten beyond the range of binary64, in steps of the largest power within.
def descend (x : Binary64) (n : Nat) : Binary64 :=
  if n ≤ 308 then x.divPowerOfTen n
  else if x.equals .zero then x
  else descend (x.divPowerOfTen 308) (n - 308)
termination_by n

-- The product of a significand and a power of ten: both factors are rounded, and then the product
-- is. Nothing is returned for what is too large.
def scale? (neg : Bool) (significand : Nat) (exponent : Int) : Option Number :=
  let x := Binary64.ofInt significand
  let magnitude :=
    if significand = 0 then x
    else if exponent < 0 then descend x (-exponent).toNat
    else if exponent ≤ 308 then x.mulPowerOfTen exponent.toNat
    else .infinite false
  match magnitude with
  | .finite y => some (.float (if neg then y.negate else y))
  | _         => none

-- The number that a numeral of a document stands for, unless it is too large. Only a numeral
-- without fraction and exponent is an integer, and only if it fits into 64 bits. The negative zero
-- is a float. Digits of the whole part that do not fit count as zeros, those of the fraction are
-- dropped.
def value? (n : Numeral) : Option Number :=
  let (significand, left) := absorb 0 n.whole
  match n.fraction, n.exponent, left with
  | none, none, [] =>
    if !n.neg then some (.int significand)
    else if significand = 0 ∨ 0x8000000000000000 < significand then scale? true significand 0
    else some (.int (-significand))
  | fraction, exponent, left =>
    let digits := fraction.getD []
    let (significand, dropped) := absorb significand digits
    let shift : Int := left.length - (digits.length - dropped.length : Nat)
    scale? n.neg significand (exponent.getD 0 + shift)

theorem length_digitsOf (text : List Char) : (digitsOf text).2.length ≤ text.length := by
  simpa [digitsOf] using (List.dropWhile_sublist Char.isDigit (l := text)).length_le

theorem length_of_fraction? {text rest : List Char} {f : Option (List Char)}
    (h : fraction? text = some (f, rest)) : rest.length ≤ text.length := by
  unfold fraction? at h
  split at h
  case _ r =>
    have := length_digitsOf r
    simp only at h
    split at h
    case isTrue => cases h
    case isFalse =>
      cases h
      simp only [List.length_cons]
      omega
  case _ => simp_all

theorem length_of_exponentDigits? {neg : Bool} {text rest : List Char} {e : Option Int}
    (h : exponentDigits? neg text = some (e, rest)) : rest.length ≤ text.length := by
  unfold exponentDigits? at h
  have := length_digitsOf text
  simp only at h
  split at h <;> simp_all

theorem length_of_exponent? {text rest : List Char} {e : Option Int}
    (h : exponent? text = some (e, rest)) : rest.length ≤ text.length := by
  unfold exponent? at h
  split at h
  case _ c r =>
    split at h
    case isTrue =>
      split at h
      all_goals
        have := length_of_exponentDigits? h
        simp_all
        omega
    case isFalse => simp_all
  case _ => simp_all

theorem length_of_whole? {text rest digits : List Char} (h : whole? text = some (digits, rest)) :
    rest.length < text.length := by
  unfold whole? at h
  split at h
  case _ => simp_all
  case _ c r _ =>
    split at h
    case isTrue hc =>
      have := (List.dropWhile_sublist Char.isDigit (l := r)).length_le
      simp only [digitsOf, Option.some.injEq, Prod.mk.injEq, List.dropWhile_cons, hc,
        if_true] at h
      simp only [← h.2, List.length_cons]
      omega
    case isFalse => cases h
  case _ => cases h

theorem length_of_read? {neg : Bool} {text rest : List Char} {n : Numeral}
    (h : read? neg text = some (n, rest)) : rest.length < text.length := by
  simp only [read?, bind, Option.bind_eq_some_iff, pure, Option.some.injEq, Prod.mk.injEq] at h
  obtain ⟨⟨_, _⟩, hw, ⟨_, _⟩, hf, ⟨_, _⟩, he, -, rfl⟩ := h
  dsimp only at hf he ⊢
  have := length_of_whole? hw
  have := length_of_fraction? hf
  have := length_of_exponent? he
  omega

end Numeral

end JsonQuery
