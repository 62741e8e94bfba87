import JsonQuery.Number.Binary64

namespace JsonQuery.Binary64

def digits (text : List Char) : List Char × List Char :=
  (text.takeWhile Char.isDigit, text.dropWhile Char.isDigit)

def exponentDigits? (neg : Bool) (text : List Char) : Option Int :=
  let (run, rest) := digits text
  let value : Int := Nat.ofDigitChars 10 run 0
  if run.isEmpty || !rest.isEmpty then none else some (if neg then -value else value)

-- The power of ten at the end of a text, or nothing at all.
def exponent? : List Char → Option Int
  | [] => some 0
  | c :: rest =>
    if c = 'e' ∨ c = 'E' then
      match rest with
      | '-' :: rest => exponentDigits? true rest
      | '+' :: rest => exponentDigits? false rest
      | rest        => exponentDigits? false rest
    else none

-- Digits with an optional point, before which or behind which there may be none.
def decimal? (neg : Bool) (text : List Char) : Option Binary64 := do
  let (whole, rest) := digits text
  let (fraction, rest) :=
    match rest with
    | '.' :: rest => digits rest
    | rest        => ([], rest)
  if whole.isEmpty && fraction.isEmpty then none
  else
    let exponent ← exponent? rest
    return ofDecimal neg (Nat.ofDigitChars 10 (whole ++ fraction) 0) (exponent - fraction.length)

def magnitude? (neg : Bool) (text : List Char) : Option Binary64 :=
  let word := text.map Char.toLower
  if word = "inf".toList ∨ word = "infinity".toList then some (.infinite neg)
  else if word = "nan".toList then some .nan
  else decimal? neg text

-- Reads a whole text as the nearest number. The words for infinity and for what is not a number are
-- read in upper and lower case.
def read? : List Char → Option Binary64
  | '-' :: rest => magnitude? true rest
  | '+' :: rest => magnitude? false rest
  | rest        => magnitude? false rest

end JsonQuery.Binary64
