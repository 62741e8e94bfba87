import JsonQuery.Regex.Basic

namespace JsonQuery.Regex

-- The number of bytes that the encoding of a code point takes.
def width (n : Nat) : Nat :=
  if n < 0x80 then 1 else if n < 0x800 then 2 else if n < 0x10000 then 3 else 4

def textWidth (text : List Char) : Nat := text.foldl (fun n c => n + width c.toNat) 0

mutual

-- The number of bytes that a match takes at least. There is none if a part cannot match.
def minWidth : Regex → Option Nat
  | empty | look _   => some 0
  | literal text     => some (textWidth text)
  | char a _         => a.ranges.head?.map (width ·.1)
  | group _ a        => a.minWidth
  | seq parts        => minWidthOfParts parts
  | alt choices      => minWidthOfChoices choices
  | times a min _ _  => a.minWidth.map (min * ·)

def minWidthOfParts : List Regex → Option Nat
  | []     => some 0
  | a :: r => a.minWidth.bind fun m => (minWidthOfParts r).map (m + ·)

def minWidthOfChoices : List Regex → Option Nat
  | []     => none
  | [a]    => a.minWidth
  | a :: r => a.minWidth.bind fun m => (minWidthOfChoices r).map (Min.min m ·)

end

mutual

-- The number of bytes that a match takes at most. There is none without a bound, and if a part
-- cannot match.
def maxWidth : Regex → Option Nat
  | empty | look _   => some 0
  | literal text     => some (textWidth text)
  | char a _         => a.ranges.getLast?.map (width ·.2)
  | group _ a        => a.maxWidth
  | seq parts        => maxWidthOfParts parts
  | alt choices      => maxWidthOfChoices choices
  | times a _ max _  => max.bind fun n => a.maxWidth.map (n * ·)

def maxWidthOfParts : List Regex → Option Nat
  | []     => some 0
  | a :: r => a.maxWidth.bind fun m => (maxWidthOfParts r).map (m + ·)

def maxWidthOfChoices : List Regex → Option Nat
  | []     => none
  | [a]    => a.maxWidth
  | a :: r => a.maxWidth.bind fun m => (maxWidthOfChoices r).map (Max.max m ·)

end

mutual

-- Whether there are matches at the start of a text only.
def startsText : Regex → Bool
  | look l          => l = .textStart
  | group _ a       => a.startsText
  | seq parts       => startsTextParts parts
  | alt choices     => startsTextChoices choices
  | times a min _ _ => 0 < min && a.startsText
  | empty | literal _ | char _ _ => false

def startsTextParts : List Regex → Bool
  | []     => false
  | a :: r => a.startsText || (a.maxWidth == some 0 && startsTextParts r)

def startsTextChoices : List Regex → Bool
  | []     => true
  | a :: r => a.startsText && startsTextChoices r

end

mutual

-- Whether there are matches at the end of a text only.
def endsText : Regex → Bool
  | look l          => l = .textEnd
  | group _ a       => a.endsText
  | seq parts       => endsTextParts parts
  | alt choices     => endsTextChoices choices
  | times a min _ _ => 0 < min && a.endsText
  | empty | literal _ | char _ _ => false

-- All parts behind the one that decides have to be empty.
def endsTextParts : List Regex → Bool
  | []     => false
  | a :: r => endsTextParts r || (r.all (·.maxWidth == some 0) && a.endsText)

def endsTextChoices : List Regex → Bool
  | []     => true
  | a :: r => a.endsText && endsTextChoices r

end

end JsonQuery.Regex
