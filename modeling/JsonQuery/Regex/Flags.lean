import JsonQuery.Regex.Basic
import JsonQuery.Regex.Folding

namespace JsonQuery.Regex

-- How the text of an expression is read. The flags hold until they are changed or the group ends.
structure Flags where
  ignoreCase : Bool
  multiLine  : Bool
  -- Whether the dot stands for line ends as well.
  dotAll     : Bool
  crlf       : Bool
  unicode    : Bool
  -- Whether repetitions prefer few rounds where nothing else is said.
  lazy       : Bool
  -- Whether blanks and comments may stand anywhere.
  spaced     : Bool
  deriving DecidableEq

namespace Flags

def default : Flags where
  ignoreCase := false
  multiLine  := false
  dotAll     := false
  crlf       := false
  unicode    := true
  lazy       := false
  spaced     := false

-- Turns the flag with a letter on or off.
def set? (f : Flags) (on : Bool) (letter : Char) : Option Flags :=
  match letter with
  | 'i' => some { f with ignoreCase := on }
  | 'm' => some { f with multiLine := on }
  | 's' => some { f with dotAll := on }
  | 'R' => some { f with crlf := on }
  | 'u' => some { f with unicode := on }
  | 'x' => some { f with spaced := on }
  | 'U' => some { f with lazy := on }
  | _   => none

-- Reads the letters of flags up to a colon or the closing parenthesis, which is among the results
-- together with the letters. Those behind a hyphen are turned off. No letter and no hyphen stands
-- twice, and a hyphen has letters behind it.
def readFrom (f : Flags) (on dangling : Bool) (seen : List Char) :
    List Char → Option (Flags × List Char × Char × List Char)
  | [] => none
  | c :: r =>
    if c = ':' ∨ c = ')' then if dangling then none else some (f, seen, c, r)
    else if seen.contains c then none
    else if c = '-' then readFrom f false true (c :: seen) r
    else (f.set? on c).bind fun f => readFrom f on false (c :: seen) r

def read? (f : Flags) (text : List Char) : Option (Flags × List Char × Char × List Char) :=
  f.readFrom true false [] text

-- Drops blanks and comments in front. `comment` holds inside of a comment, which ends with its
-- line.
def dropSpace (comment : Bool) : List Char → List Char
  | [] => []
  | c :: r =>
    if comment then dropSpace (c != '\n') r
    else if Text.isBlank c then dropSpace false r
    else if c = '#' then dropSpace true r
    else c :: r

-- Drops what may stand between two parts of an expression.
def skip (f : Flags) (text : List Char) : List Char :=
  if f.spaced then dropSpace false text else text

theorem length_dropSpace_le (comment : Bool) (text : List Char) :
    (dropSpace comment text).length ≤ text.length := by
  induction text generalizing comment with
  | nil => simp [dropSpace]
  | cons c r ih =>
    have keep (comment : Bool) := Nat.le_succ_of_le (ih comment)
    simp only [dropSpace, List.length_cons]
    split
    case isTrue => exact keep _
    case isFalse =>
      split
      case isTrue => exact keep _
      case isFalse =>
        split
        case isTrue => exact keep _
        case isFalse => exact Nat.le_refl _

theorem length_skip_le (f : Flags) (text : List Char) : (f.skip text).length ≤ text.length := by
  unfold skip
  split
  case isTrue => exact length_dropSpace_le _ _
  case isFalse => exact Nat.le_refl _

-- The characters in front that pass a test, with what may stand between them left out.
def span (f : Flags) (p : Char → Bool) (text : List Char) : List Char × List Char :=
  match text with
  | [] => ([], [])
  | c :: r =>
    if p c then
      let (cs, rest) := f.span p (f.skip r)
      (c :: cs, rest)
    else
      ([], c :: r)
termination_by text.length
decreasing_by
  have := length_skip_le f r
  simp only [List.length_cons]
  omega

-- Exactly `n` characters in front, all of which pass a test.
def exactly? (f : Flags) (p : Char → Bool) : Nat → List Char → Option (List Char × List Char)
  | 0,     text => some ([], text)
  | _ + 1, [] => none
  | n + 1, c :: r =>
    if p c then (f.exactly? p n (f.skip r)).map fun (cs, rest) => (c :: cs, rest) else none

-- Adds the characters that are equal without regard to case, if case is ignored.
def fold (f : Flags) (a : CharClass) : CharClass :=
  if f.ignoreCase then a.folded (if f.unicode then .unicode else .ascii) else a

-- Complements hold characters beyond ASCII, so that there are none without Unicode.
def negate? (f : Flags) (negated : Bool) (a : CharClass) : Option CharClass :=
  if negated && !f.unicode then none else some (a.negateIf negated)

def lineKind (f : Flags) : LineEnd := if f.crlf then .crlf else .lf

def caret (f : Flags) : Look := if f.multiLine then .lineStart f.lineKind else .textStart

def dollar (f : Flags) : Look := if f.multiLine then .lineEnd f.lineKind else .textEnd

-- What the dot stands for.
def dot? (f : Flags) : Option CharClass :=
  if !f.unicode then none
  else if f.dotAll then some .all
  else if f.crlf then some (CharClass.ofCodes [0xA, 0xD]).negate
  else some (CharClass.singleton '\n').negate

end Flags

end JsonQuery.Regex
