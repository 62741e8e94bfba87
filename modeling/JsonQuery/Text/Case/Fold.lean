import JsonQuery.Text.Case.Lower
import JsonQuery.Text.Case.Upper

namespace JsonQuery.Text

-- Replaces a character by its image, if the image is a single character.
def single (image : List Char) (c : Char) : Char :=
  match image with
  | [d] => d
  | _   => c

-- The character that stands for all characters which are equal without regard to case: the lower
-- case of the upper case. The dotless i is equal to itself only, although the letter I is its upper
-- case. Two pairs of Greek letters and one ligature have upper cases of several characters.
def foldKey (c : Char) : Char :=
  if c = '\u0131' then c
  else
    let upper := single (upperChar c) c
    match single (lowerChar upper) upper with
    | '\u1FD3' => '\u0390'
    | '\u1FE3' => '\u03B0'
    | '\uFB05' => '\uFB06'
    | k => k

-- The code points that a run moves and those that it moves them to.
def CaseRun.codes (r : CaseRun) : List Nat :=
  (List.range ((r.last - r.first) / r.stride + 1)).flatMap fun i =>
    [r.first + r.stride * i, r.target + r.stride * i]

-- The run that changes the case of the ASCII letters.
def asciiRun : CaseRun := ⟨0x41, 0x5A, 1, 0x61⟩

-- The code points of all characters that take part in the changes of case, in ascending order.
def caseCodes : List Nat :=
  let codes := (asciiRun :: lowerRuns ++ upperRuns).flatMap CaseRun.codes
  (codes ++ [0x390, 0x3B0, 0x1FD3, 0x1FE3, 0xFB05, 0xFB06]).mergeSort.eraseReps

-- Characters that are equal without regard to case.
structure CaseOrbit where
  key     : Nat
  members : List Nat

namespace CaseOrbit

-- Puts code points with the same key together, which stand side by side.
def gather : List (Nat × Nat) → List CaseOrbit
  | [] => []
  | (k, n) :: r =>
    match gather r with
    | ⟨l, members⟩ :: rest =>
      if k = l then ⟨l, n :: members⟩ :: rest else ⟨k, [n]⟩ :: ⟨l, members⟩ :: rest
    | [] => [⟨k, [n]⟩]

-- The orbits of some characters.
def ofCodes (codes : List Nat) : List CaseOrbit :=
  gather ((codes.map fun n => ((foldKey (Char.ofNat n)).toNat, n)).mergeSort (·.1 ≤ ·.1))

end CaseOrbit

end JsonQuery.Text
