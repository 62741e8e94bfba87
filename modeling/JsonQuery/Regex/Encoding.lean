import JsonQuery.Regex.CharClass

namespace JsonQuery.Regex

-- A range of bytes, both ends included.
structure ByteRange where
  first : Nat
  last  : Nat
  deriving DecidableEq

-- The encodings of a range of characters: the ranges of their bytes, one after the other.
abbrev ByteRow := List ByteRange

namespace ByteRow

-- The rows for the numbers from `low` to `high` where the first byte is counted from `lead`, and
-- `k` bytes of six bits each follow. A row has all numbers that its ranges allow for, and so the
-- numbers in front of the first full row and behind the last one have rows of their own.
def split (lead : Nat) : Nat → Nat → Nat → List ByteRow
  | 0,     low, high => [[⟨lead + low, lead + high⟩]]
  | k + 1, low, high =>
    let unit := 1 <<< (6 * (k + 1))
    let rest (low high : Nat) := split 0x80 k low high
    let under (first last : Nat) := (⟨lead + first, lead + last⟩ :: ·)
    let (first, low) := (low / unit, low % unit)
    let (last, high) := (high / unit, high % unit)
    if first = last then (rest low high).map (under first first)
    else
      let front := if low = 0 then [] else (rest low (unit - 1)).map (under first first)
      let back := if high = unit - 1 then [] else (rest 0 high).map (under last last)
      let start := if low = 0 then first else first + 1
      let stop := if high = unit - 1 then last + 1 else last
      let middle :=
        if start < stop then (rest 0 (unit - 1)).map (under start (stop - 1)) else []
      front ++ middle ++ back

-- The code points whose encodings are of one length: the first and the last one, what the first
-- byte is counted from, and the number of bytes that follow. The surrogates have no encoding.
def bands : List (Nat × Nat × Nat × Nat) := [
  (0, 0x7F, 0, 0), (0x80, 0x7FF, 0xC0, 1), (0x800, 0xD7FF, 0xE0, 2), (0xE000, 0xFFFF, 0xE0, 2),
  (0x10000, 0x10FFFF, 0xF0, 3)]

-- The rows for the code points from `low` to `high`.
def ofRange (low high : Nat) : List ByteRow :=
  bands.flatMap fun (first, last, lead, k) =>
    if max low first ≤ min high last then split lead k (max low first) (min high last) else []

end ByteRow

-- The encodings of the characters of a class, in ascending order.
def CharClass.rows (a : CharClass) : List ByteRow :=
  a.ranges.flatMap fun r => ByteRow.ofRange r.1 r.2

end JsonQuery.Regex
