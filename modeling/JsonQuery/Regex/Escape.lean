import JsonQuery.Regex.Flags
import JsonQuery.Regex.Named

namespace JsonQuery.Regex

-- What an escape stands for.
inductive Atom where
  | literal (c : Char)
  | cls (a : CharClass)
  | look (l : Look)
  deriving DecidableEq

namespace Escape

def isHex (c : Char) : Bool :=
  c.isDigit || ('a' ≤ c && c ≤ 'f') || ('A' ≤ c && c ≤ 'F')

def hexValue (digits : List Char) : Nat :=
  digits.foldl (fun n c =>
    16 * n + if c.isDigit then c.toNat - 0x30 else c.toLower.toNat - 0x57) 0

-- The character of a code point. The surrogates are no characters.
def character? (n : Nat) : Option Char := if n.isValidChar then some (Char.ofNat n) else none

-- A code point in braces or with a fixed number of digits. Without Unicode, two digits stand for a
-- byte, and only those of ASCII characters are allowed.
def hex? (f : Flags) (count : Nat) (text : List Char) : Option (Atom × List Char) :=
  match f.skip text with
  | '{' :: r =>
    match f.span (· != '}') (f.skip r) with
    | (digits, '}' :: rest) =>
      if digits ≠ [] ∧ digits.all isHex then
        (character? (hexValue digits)).map fun c => (.literal c, f.skip rest)
      else
        none
    | _ => none
  | text =>
    (f.exactly? isHex count text).bind fun (digits, rest) =>
      (character? (hexValue digits)).bind fun c =>
        if count = 2 ∧ !f.unicode ∧ 0x7F < c.toNat then none else some (.literal c, rest)

-- Splits a text at the first of the characters.
def cutAt (p : Char → Bool) (text : List Char) : Option (List Char × List Char) :=
  match text.span (!p ·) with
  | (front, _ :: rest) => some (front, rest)
  | (_, [])            => none

-- Splits a text at the first sign of inequality.
def cutUnequal : List Char → Option (List Char × List Char)
  | [] => none
  | '!' :: '=' :: r => some ([], r)
  | c :: r => (cutUnequal r).map fun (front, rest) => (c :: front, rest)

-- The class that is named in braces, and whether its complement is meant.
def property? (name : List Char) : Option (CharClass × Bool) :=
  match cutUnequal name with
  | some (property, value) => (CharClass.valued? property value).map (·, true)
  | none =>
    match (cutAt (· == ':') name).or (cutAt (· == '=') name) with
    | some (property, value) => (CharClass.valued? property value).map (·, false)
    | none => (CharClass.named? name).map (·, false)

def propertyName? (f : Flags) (text : List Char) : Option (List Char × List Char) :=
  match f.skip text with
  | [] => none
  | '{' :: r =>
    match f.span (· != '}') (f.skip r) with
    | (name, '}' :: rest) => some (name, rest)
    | _ => none
  | c :: r => if c = '\\' then none else some ([c], f.skip r)

def propertyClass? (f : Flags) (negated : Bool) (text : List Char) : Option (Atom × List Char) :=
  (propertyName? f text).bind fun (name, rest) =>
    (property? name).bind fun (a, unequal) =>
      if f.unicode then some (.cls ((f.fold a).negateIf (negated != unequal)), rest) else none

def letterClass? (f : Flags) (negated : Bool) (a : Bool → CharClass) (text : List Char) :
    Option (Atom × List Char) :=
  (f.negate? negated (a f.unicode)).map fun a => (.cls a, text)

-- The boundaries of words that have a name in braces.
def boundary? (f : Flags) (name : List Char) : Option Look :=
  match String.ofList name with
  | "start"      => some (.wordStart f.unicode)
  | "end"        => some (.wordEnd f.unicode)
  | "start-half" => some (.noWordBefore f.unicode)
  | "end-half"   => some (.noWordAfter f.unicode)
  | _            => none

def isBoundaryChar (c : Char) : Bool := c.isAlpha || c = '-'

-- The boundary of a word. Braces without a name behind it belong to a repetition.
def wordBoundary? (f : Flags) (text : List Char) : Option (Atom × List Char) :=
  match text with
  | '{' :: r =>
    match f.skip r with
    | [] => none
    | c :: r =>
      if isBoundaryChar c then
        match f.span isBoundaryChar (c :: r) with
        | (name, '}' :: rest) => (boundary? f name).map fun l => (.look l, rest)
        | _ => none
      else
        some (.look (.boundary f.unicode), text)
  | _ => some (.look (.boundary f.unicode), text)

-- The signs that stand for themselves behind a backslash. The angles are reserved.
def isEscapable (c : Char) : Bool :=
  c.toNat < 0x80 && !c.isAlphanum && c != '<' && c != '>'

-- Reads what stands behind a backslash.
def read? (f : Flags) : List Char → Option (Atom × List Char)
  | [] => none
  | c :: r =>
    match c with
    | 'x' => hex? f 2 r
    | 'u' => hex? f 4 r
    | 'U' => hex? f 8 r
    | 'p' => propertyClass? f false r
    | 'P' => propertyClass? f true r
    | 'd' => letterClass? f false CharClass.digits r
    | 'D' => letterClass? f true CharClass.digits r
    | 's' => letterClass? f false CharClass.spaces r
    | 'S' => letterClass? f true CharClass.spaces r
    | 'w' => letterClass? f false CharClass.words r
    | 'W' => letterClass? f true CharClass.words r
    | 'a' => some (.literal '\x07', r)
    | 'f' => some (.literal '\x0C', r)
    | 't' => some (.literal '\t', r)
    | 'n' => some (.literal '\n', r)
    | 'r' => some (.literal '\r', r)
    | 'v' => some (.literal '\x0B', r)
    | 'A' => some (.look .textStart, r)
    | 'z' => some (.look .textEnd, r)
    | 'b' => wordBoundary? f r
    | 'B' => some (.look (.notBoundary f.unicode), r)
    | '<' => some (.look (.wordStart f.unicode), r)
    | '>' => some (.look (.wordEnd f.unicode), r)
    | c   => if isEscapable c then some (.literal c, r) else none

end Escape

end JsonQuery.Regex
