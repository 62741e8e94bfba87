import JsonQuery.Text.Case.Context
import JsonQuery.Text.Case.Lower
import JsonQuery.Text.Case.Upper

namespace JsonQuery.Text

-- Whether the nearest character that is not ignored belongs to a cased letter.
def meetsCased (text : List Char) : Bool :=
  match text.dropWhile isCaseIgnorable with
  | c :: _ => isCased c
  | []     => false

-- The capital sigma is the one letter whose lower case depends on its place: it has a form of its
-- own at the end of a word. `before` holds the characters in front, the nearest one first.
def lowerSigma (before after : List Char) : Char :=
  if meetsCased before && !meetsCased after then '\u03C2' else '\u03C3'

def lowerFrom (before : List Char) : List Char → List Char
  | []     => []
  | c :: r =>
    (if c = '\u03A3' then [lowerSigma before r] else lowerChar c) ++ lowerFrom (c :: before) r

-- The lower case of a whole string by the full case mapping of Unicode.
def lowercase (s : String) : String := String.ofList (lowerFrom [] s.toList)

-- The upper case of a whole string by the full case mapping of Unicode.
def uppercase (s : String) : String := String.ofList (s.toList.flatMap upperChar)

theorem toList_lowercase (s : String) : (lowercase s).toList = lowerFrom [] s.toList := by
  simp [lowercase]

end JsonQuery.Text
