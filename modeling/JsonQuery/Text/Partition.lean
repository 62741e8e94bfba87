namespace JsonQuery.Text

-- A partition of all code points: the runs of equal codes in order, each with its length.
abbrev Partition := List (String × Nat)

namespace Partition

-- One run is written as its code and its length, which is left out if it is one.
def readRun (text : String) : String × Nat :=
  let code := text.toList.takeWhile Char.isAlpha
  let digits := text.toList.dropWhile Char.isAlpha
  (String.ofList code, ((String.ofList digits).toNat?).getD 1)

-- The runs that are written on some lines, separated by spaces.
def read (lines : List String) : Partition :=
  lines.flatMap fun line => (line.splitOn " ").map readRun

-- The ranges of the code points whose codes are accepted. `start` is the first code point of the
-- partition.
def rangesFrom (accepts : String → Bool) (start : Nat) : Partition → List (Nat × Nat)
  | [] => []
  | (code, length) :: rest =>
    let others := rangesFrom accepts (start + length) rest
    if accepts code then (start, start + length - 1) :: others else others

def ranges (accepts : String → Bool) (p : Partition) : List (Nat × Nat) := rangesFrom accepts 0 p

end Partition

end JsonQuery.Text
