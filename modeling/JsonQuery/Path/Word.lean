import JsonQuery.Number.Integer
import JsonQuery.Path.Segment
import JsonQuery.Text.Alphabetic
import JsonQuery.Text.Numeric

namespace JsonQuery

-- The characters of a key that is written without quotes.
def isWordChar (c : Char) : Bool :=
  Text.isAlphabetic c || Text.isNumeric c || c = '_' || c = '-' || c = '$' || c = '@'

-- What a word means that is no function: an integer in the range of 64 bits is an index, and every
-- other word is a key.
def Segment.ofWord (word : List Char) (optional : Bool) : Segment :=
  match signed64? word with
  | some i => .index i optional
  | none   => .key (String.ofList word) optional

-- Whether a key can be written as a word and is read as that key again.
def isPlainKey (key : String) : Bool :=
  !key.isEmpty && key.toList.all isWordChar && (signed64? key.toList).isNone && !Builtin.isName key

theorem ofWord_of_isPlainKey {key : String} {optional : Bool} (h : isPlainKey key = true) :
    Segment.ofWord key.toList optional = .key key optional := by
  simp only [isPlainKey, Bool.and_eq_true, Option.isNone_iff_eq_none] at h
  simp [Segment.ofWord, h.1.2]

end JsonQuery
