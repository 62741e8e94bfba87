import JsonQuery.Regex.Property

namespace JsonQuery.Regex.CharClass

-- The classes of characters that the rules for the segmentation of texts speak of, with their
-- names. A character belongs to the first class that it qualifies for. What is left to rules of its
-- own comes without a name.
abbrev Breaks := List (List String × CharClass)

-- Takes from each class what belongs to an earlier one.
def inOrder (taken : CharClass) : Breaks → Breaks
  | [] => []
  | (names, a) :: rest => (names, a.diff taken) :: inOrder (taken.union a) rest

def cr : List String × CharClass := (["cr"], range 0xD 0xD)

def lf : List String × CharClass := (["lf"], range 0xA 0xA)

def zwj : List String × CharClass := (["zwj"], range 0x200D 0x200D)

def regional : List String × CharClass := (["ri", "regionalindicator"], listed "regionalindicator")

-- The marks that spacing does not keep apart from their base, and the modifiers of emoji.
def extenders : CharClass := graphemeExtend.union (listed "emojimodifier")

def spacingMarks : CharClass := categories ["Mc"]

def format : CharClass := categories ["Cf"]

-- The signs in front of a number, which enclose it.
def numberSigns : CharClass := listed "prependedconcatenationmark"

-- Consonants that are written in front of their base.
def precedingConsonants : CharClass :=
  ofRanges [(0xD4E, 0xD4E), (0x111C2, 0x111C3), (0x113D1, 0x113D1), (0x1193F, 0x1193F),
    (0x11941, 0x11941), (0x11A3A, 0x11A3A), (0x11A84, 0x11A89), (0x11D46, 0x11D46),
    (0x11F02, 0x11F02)]

-- Spacing marks that stand apart from their base.
def looseMarks : CharClass :=
  ofRanges [(0x102B, 0x102C), (0x1038, 0x1038), (0x1062, 0x1064), (0x1067, 0x106D),
    (0x1083, 0x1083), (0x1087, 0x108C), (0x108F, 0x108F), (0x109A, 0x109C), (0x1A61, 0x1A61),
    (0x1A63, 0x1A64), (0xAA7B, 0xAA7B), (0xAA7D, 0xAA7D), (0x11720, 0x11721)]

-- The Hangul syllables without a final consonant.
def openSyllables : CharClass := ofCodes ((List.range 399).map (0xAC00 + 28 * ·))

-- The classes for grapheme clusters.
def graphemeBreaks : Breaks := inOrder .empty [
  cr, lf, zwj,
  (["ex", "extend"], extenders),
  regional,
  (["pp", "prepend"], numberSigns.union precedingConsonants),
  (["cn", "control"],
    (categories ["Cc", "Cf", "Zl", "Zp"]).union
      (unassigned.inter (listed "defaultignorablecodepoint"))),
  (["sm", "spacingmark"], (spacingMarks.union (ofCodes [0xE33, 0xEB3])).diff looseMarks),
  (["l"], ofRanges [(0x1100, 0x115F), (0xA960, 0xA97C)]),
  (["v"], ofRanges [(0x1160, 0x11A7), (0xD7B0, 0xD7C6), (0x16D63, 0x16D63), (0x16D67, 0x16D6A)]),
  (["t"], ofRanges [(0x11A8, 0x11FF), (0xD7CB, 0xD7FB)]),
  (["lv"], openSyllables),
  (["lvt"], range 0xAC00 0xD7A3)]

-- The letters of scripts that separate words by no blanks.
def unspacedLetters : CharClass :=
  ofRanges [(0xE01, 0xE30), (0xE32, 0xE33), (0xE40, 0xE46), (0xE81, 0xE82), (0xE84, 0xE84),
    (0xE86, 0xE8A), (0xE8C, 0xEA3), (0xEA5, 0xEA5), (0xEA7, 0xEB0), (0xEB2, 0xEB3), (0xEBD, 0xEBD),
    (0xEC0, 0xEC4), (0xEC6, 0xEC6), (0xEDC, 0xEDF), (0x1000, 0x102A), (0x103F, 0x103F),
    (0x1050, 0x1055), (0x105A, 0x105D), (0x1061, 0x1061), (0x1065, 0x1066), (0x106E, 0x1070),
    (0x1075, 0x1081), (0x108E, 0x108E), (0x1780, 0x17B3), (0x17D7, 0x17D7), (0x17DC, 0x17DC),
    (0x1950, 0x196D), (0x1970, 0x1974), (0x1980, 0x19AB), (0x19B0, 0x19C9), (0x1A20, 0x1A54),
    (0x1AA7, 0x1AA7), (0xA9E0, 0xA9E4), (0xA9E6, 0xA9EF), (0xA9FA, 0xA9FE), (0xAA60, 0xAA76),
    (0xAA7A, 0xAA7A), (0xAA7E, 0xAAAF), (0xAAB1, 0xAAB1), (0xAAB5, 0xAAB6), (0xAAB9, 0xAABD),
    (0xAAC0, 0xAAC0), (0xAAC2, 0xAAC2), (0xAADB, 0xAADD), (0x11700, 0x1171A), (0x11740, 0x11746)]

-- Signs that words hold like letters.
def wordSigns : CharClass :=
  ofRanges [(0x2C2, 0x2C5), (0x2D2, 0x2D7), (0x2DE, 0x2DF), (0x2E5, 0x2EB), (0x2ED, 0x2ED),
    (0x2EF, 0x2FF), (0x55A, 0x55C), (0x55E, 0x55E), (0x58A, 0x58A), (0x5F3, 0x5F3), (0x70F, 0x70F),
    (0xA708, 0xA716), (0xA720, 0xA721), (0xA789, 0xA78A), (0xAB5B, 0xAB5B)]

def ideographs : CharClass := (listed "ideographic").union (script "Hira")

-- The Arabic separator of decimals.
def arabicPoint : CharClass := range 0x66B 0x66B

-- The signs in front of numbers, less one that stands in front of letters.
def numeric : CharClass :=
  decimals.union (numberSigns.diff (range 0x70F 0x70F)) |>.union arabicPoint

-- The classes for words.
def wordBreaks : Breaks := inOrder .empty [
  cr, lf,
  (["nl", "newline"], ofRanges [(0xB, 0xC), (0x85, 0x85), (0x2028, 0x2029)]),
  zwj,
  (["extend"], extenders.union spacingMarks),
  regional,
  (["fo", "format"], (format.diff numberSigns).diff (range 0x200B 0x200D)),
  (["ka", "katakana"],
    (script "Kana").union (ofRanges [(0x3031, 0x3035), (0x309B, 0x309C), (0x30A0, 0x30A0),
      (0x30FC, 0x30FC), (0xFF70, 0xFF70)])),
  (["hl", "hebrewletter"], (script "Hebr").inter (categories ["Lo"])),
  ([], unspacedLetters),
  (["le", "aletter"], (alphabetic.union wordSigns).diff ideographs),
  (["sq", "singlequote"], range 0x27 0x27),
  (["dq", "doublequote"], range 0x22 0x22),
  (["mb", "midnumlet"], ofCodes [0x2E, 0x2018, 0x2019, 0x2024, 0xFE52, 0xFF07, 0xFF0E]),
  (["ml", "midletter"],
    ofCodes [0x3A, 0xB7, 0x387, 0x55F, 0x5F4, 0x2027, 0xFE13, 0xFE55, 0xFF1A]),
  (["mn", "midnum"],
    ofCodes [0x2C, 0x3B, 0x37E, 0x589, 0x60C, 0x60D, 0x66C, 0x7F8, 0x2044, 0xFE10, 0xFE14, 0xFE50,
      0xFE54, 0xFF0C, 0xFF1B]),
  (["nu", "numeric"], numeric),
  (["ex", "extendnumlet"], (categories ["Pc"]).union (range 0x202F 0x202F)),
  (["wsegspace"],
    ofRanges [(0x20, 0x20), (0x1680, 0x1680), (0x2000, 0x2006), (0x2008, 0x200A), (0x205F, 0x205F),
      (0x3000, 0x3000)])]

-- The Georgian letters, which have no upper case at the start of a sentence.
def georgianLower : CharClass := ofRanges [(0x10D0, 0x10FA), (0x10FD, 0x10FF)]

def georgianUpper : CharClass := ofRanges [(0x1C90, 0x1CBA), (0x1CBD, 0x1CBF)]

-- Quotation marks that are not classified as opening or closing ones.
def otherQuotes : CharClass :=
  ofRanges [(0x22, 0x22), (0x27, 0x27), (0x275B, 0x2760), (0x2E00, 0x2E01), (0x2E06, 0x2E08),
    (0x2E0B, 0x2E0B), (0x1F676, 0x1F678)]

-- The classes for sentences.
def sentenceBreaks : Breaks := inOrder .empty [
  cr, lf,
  (["ex", "extend"], graphemeExtend.union spacingMarks |>.union (range 0x200D 0x200D)),
  (["se", "sep"], ofCodes [0x85, 0x2028, 0x2029]),
  (["fo", "format"], format.diff numeric),
  (["sp"], blanks),
  (["lo", "lower"], lowercase.diff georgianLower),
  (["up", "upper"], (uppercase.union (categories ["Lt"])).diff georgianUpper),
  (["le", "oletter"], alphabetic.union (range 0x5F3 0x5F3)),
  (["nu", "numeric"], numeric.union (range 0x66C 0x66C)),
  (["at", "aterm"], ofCodes [0x2E, 0x2024, 0xFE52, 0xFF0E]),
  (["sc", "scontinue"],
    ofCodes [0x2C, 0x2D, 0x3A, 0x3B, 0x37E, 0x55D, 0x60C, 0x60D, 0x7F8, 0x1802, 0x1808, 0x2013,
      0x2014, 0x3001, 0xFE10, 0xFE11, 0xFE13, 0xFE14, 0xFE31, 0xFE32, 0xFE50, 0xFE51, 0xFE54,
      0xFE55, 0xFE58, 0xFE63, 0xFF0C, 0xFF0D, 0xFF1A, 0xFF1B, 0xFF64]),
  (["st", "sterm"], listed "sentenceterminal"),
  (["cl", "close"], (categories ["Ps", "Pe", "Pi", "Pf"]).union otherQuotes)]

end JsonQuery.Regex.CharClass
