import JsonQuery.Text.Range

namespace JsonQuery.Text

-- The characters with the Unicode property White_Space.
def blankRanges : List (Nat × Nat) := [
  (0x9, 0xD), (0x20, 0x20), (0x85, 0x85), (0xA0, 0xA0), (0x1680, 0x1680), (0x2000, 0x200A),
  (0x2028, 0x2029), (0x202F, 0x202F), (0x205F, 0x205F), (0x3000, 0x3000)]

def isBlank (c : Char) : Bool := covers blankRanges c.toNat

def trimStart (text : List Char) : List Char := text.dropWhile isBlank

def trimEnd (text : List Char) : List Char := (text.reverse.dropWhile isBlank).reverse

-- Removes the white space at both ends.
def trim (text : List Char) : List Char := trimEnd (trimStart text)

theorem trimStart_cons {c : Char} {text : List Char} (h : isBlank c = false) :
    trimStart (c :: text) = c :: text := by
  simp [trimStart, h]

theorem trimEnd_append_singleton {c : Char} {text : List Char} (h : isBlank c = false) :
    trimEnd (text ++ [c]) = text ++ [c] := by
  simp [trimEnd, h]

theorem length_trimStart_le (text : List Char) : (trimStart text).length ≤ text.length := by
  simpa [trimStart] using (List.dropWhile_sublist isBlank (l := text)).length_le

theorem length_trimEnd_le (text : List Char) : (trimEnd text).length ≤ text.length := by
  simpa [trimEnd] using (List.dropWhile_sublist isBlank (l := text.reverse)).length_le

theorem length_trim_le (text : List Char) : (trim text).length ≤ text.length :=
  Nat.le_trans (length_trimEnd_le _) (length_trimStart_le _)

end JsonQuery.Text
