import JsonQuery.Regex.CharClass
import JsonQuery.Text.Alphabetic
import JsonQuery.Text.Blank
import JsonQuery.Text.Category
import JsonQuery.Text.Property
import JsonQuery.Text.Script
import JsonQuery.Text.Case.Context
import JsonQuery.Text.Case.Fold

namespace JsonQuery.Regex.CharClass

-- Classes of characters by their properties. Expressions know Unicode 16, and so the characters
-- that later versions have added are unassigned and have no properties.

def all : CharClass := range 0 0x10FFFF

def ascii : CharClass := range 0 0x7F

def asciiLetters : CharClass := ofRanges [(0x41, 0x5A), (0x61, 0x7A)]

def categories (codes : List String) : CharClass := ofRanges (Text.categoryRanges codes)

def unassigned : CharClass := categories ["Cn"]

-- The characters in the ranges of a table of a later version.
def current (rs : List (Nat × Nat)) : CharClass := (ofRanges rs).diff unassigned

def script (code : String) : CharClass := ofRanges (Text.scriptRanges code)

-- The characters with a property that has a table of its own.
def listed? (name : String) : Option CharClass :=
  (Text.properties.find? (·.1.contains name)).map (ofRanges ·.2)

def listed (name : String) : CharClass := (listed? name).getD empty

def blanks : CharClass := ofRanges Text.blankRanges

def joinControl : CharClass := listed "joincontrol"

-- Letters, as properties and as general categories.

def alphabetic : CharClass := asciiLetters.union (current Text.alphabeticRanges)

def letters : CharClass := categories ["Lu", "Ll", "Lt", "Lm", "Lo"]

def otherAlphabetic : CharClass := alphabetic.diff (letters.union (categories ["Nl"]))

def otherLowercase : CharClass := ofRanges Text.otherLowercaseRanges

def lowercase : CharClass := (categories ["Ll"]).union otherLowercase

def otherUppercase : CharClass := ofRanges Text.otherUppercaseRanges

def uppercase : CharClass := (categories ["Lu"]).union otherUppercase

-- One letter of phonetics is cased since its category has changed.
def cased : CharClass :=
  asciiLetters.union (current Text.casedRanges) |>.union (range 0x295 0x295)

def caseIgnorable : CharClass :=
  (ofCodes [0x27, 0x2E, 0x3A, 0x5E, 0x60]).union (current Text.caseIgnorableRanges)

-- The classes of the escapes for digits, white space and characters of words.

def decimals : CharClass := categories ["Nd"]

def asciiDigits : CharClass := range 0x30 0x39

def digits (unicode : Bool) : CharClass := if unicode then decimals else asciiDigits

def asciiBlanks : CharClass := ofRanges [(0x9, 0xD), (0x20, 0x20)]

def spaces (unicode : Bool) : CharClass := if unicode then blanks else asciiBlanks

def wordChars : CharClass :=
  alphabetic.union (categories ["Mn", "Mc", "Me", "Nd", "Pc"]) |>.union joinControl

def asciiWordChars : CharClass := ofRanges [(0x30, 0x39), (0x41, 0x5A), (0x5F, 0x5F), (0x61, 0x7A)]

def words (unicode : Bool) : CharClass := if unicode then wordChars else asciiWordChars

-- Identifiers.

def otherIdStart : CharClass := ofRanges Text.otherIdStartRanges

-- The vertical tilde is a letter that is reserved for syntax.
def idStart : CharClass :=
  letters.union (categories ["Nl"]) |>.union otherIdStart |>.diff (range 0x2E2F 0x2E2F)

def otherIdContinue : CharClass := ofRanges Text.otherIdContinueRanges

def idContinue : CharClass :=
  idStart.union (categories ["Mn", "Mc", "Nd", "Pc"]) |>.union otherIdContinue

-- The same without the characters that compatibility normalization takes out of identifiers.

def xidStart : CharClass := idStart.diff (ofRanges Text.unstableStartRanges)

def xidContinue : CharClass := idContinue.diff (ofRanges Text.unstableContinueRanges)

def otherMath : CharClass := ofRanges Text.otherMathRanges

def math : CharClass := (categories ["Sm"]).union otherMath

def otherGraphemeExtend : CharClass := ofRanges Text.otherGraphemeExtendRanges

def graphemeExtend : CharClass := (categories ["Mn", "Me"]).union otherGraphemeExtend

def graphemeBase : CharClass :=
  (categories ["Cc", "Cf", "Cs", "Co", "Cn", "Zl", "Zp"]).union graphemeExtend |>.negate

-- The characters that a mapping changes, if it leads to characters that are assigned.
def changing (mapping : Char → List Char) : CharClass :=
  let codes := 0x130 :: Text.upperSequences.map (·.1) ++ Text.caseCodes
  ofCodes (codes.mergeSort.filter fun n =>
    let c := Char.ofNat n
    mapping c != [c] && (c :: mapping c).all (!unassigned.contains ·))

def changingInLower : CharClass := changing Text.lowerChar

def changingInUpper : CharClass := changing Text.upperChar

-- The Georgian letters stay as they are in titles, and the capital digraphs do not, since they have
-- forms of their own there.
def changingInTitle : CharClass :=
  changingInUpper.diff ((categories ["Lt"]).union (ofRanges [(0x10D0, 0x10FA), (0x10FD, 0x10FF)]))
    |>.union (ofCodes [0x1C4, 0x1C7, 0x1CA, 0x1F1])

def changingInCase : CharClass :=
  changingInLower.union changingInUpper |>.union changingInTitle

-- The Cherokee letters are folded to upper case.
def changingInFold : CharClass :=
  changingInLower.diff (range 0x13A0 0x13F5) |>.union (ofRanges Text.otherCasefoldedRanges)

end JsonQuery.Regex.CharClass
