import JsonQuery.Regex.Escape

namespace JsonQuery.Regex

-- How two classes in brackets are combined. All operators bind alike, and to the left.
inductive Combination where
  | inter
  | diff
  | symmDiff
  deriving DecidableEq

def Combination.apply : Combination → CharClass → CharClass → CharClass
  | inter    => CharClass.inter
  | diff     => CharClass.diff
  | symmDiff => CharClass.symmDiff

-- A class that has been read in a bracket, and the depth of its nesting, which counts brackets,
-- operators and the rows with several items.
structure Operand where
  chars : CharClass
  depth : Nat
  deriving DecidableEq

-- An opened bracket: what stands before its last operator and the items behind it. If case is
-- ignored, each item holds the characters that are equal to its own without regard to case. This
-- carries over to all classes that are made of the items, complements included.
structure Bracket where
  negated : Bool
  left    : Option (Combination × Operand)
  items   : Operand
  count   : Nat
  deriving DecidableEq

namespace Bracket

def start (negated : Bool) : Bracket := ⟨negated, none, ⟨.empty, 0⟩, 0⟩

def push (b : Bracket) (a : CharClass) (depth : Nat) : Bracket :=
  { b with items := ⟨b.items.chars.union a, max b.items.depth depth⟩, count := b.count + 1 }

-- The class of all that has been read.
def value (b : Bracket) : Operand :=
  let row := { b.items with depth := b.items.depth + if b.count ≤ 1 then 0 else 1 }
  match b.left with
  | some (op, left) => ⟨op.apply left.chars row.chars, max left.depth row.depth + 1⟩
  | none            => row

def combine (op : Combination) (b : Bracket) : Bracket :=
  { start b.negated with left := some (op, b.value) }

-- The class of a closed bracket.
def close? (f : Flags) (b : Bracket) : Option Operand :=
  (f.negate? b.negated b.value.chars).map fun a => ⟨a, b.value.depth + 1⟩

-- Starts to read behind an opening bracket. Hyphens in front stand for themselves, and so does a
-- closing bracket that would leave the class empty.
def opened (f : Flags) (text : List Char) : Bracket × List Char :=
  let (negated, text) :=
    match f.skip text with
    | '^' :: r => (true, f.skip r)
    | text     => (false, text)
  match f.span (· == '-') text with
  | ([], ']' :: r)  => ((start negated).push (.singleton ']') 0, f.skip r)
  | (hyphens, rest) => (hyphens.foldl (fun b c => b.push (.singleton c) 0) (start negated), rest)

-- A class of ASCII characters with a name between colons, behind its opening bracket, and whether
-- its complement is meant.
def asciiClass? (text : List Char) : Option (CharClass × Bool × List Char) :=
  match text with
  | ':' :: r =>
    let (negated, r) := match r with
      | '^' :: r => (true, r)
      | r        => (false, r)
    match r.span (· != ':') with
    | (name, ':' :: ']' :: rest) =>
      (CharClass.asciiRanges? (String.ofList name)).map fun rs => (.ofRanges rs, negated, rest)
    | _ => none
  | _ => none

-- One character or one escape. Classes without Unicode have ASCII characters only.
def atom? (f : Flags) (text : List Char) : Option (Atom × List Char) :=
  let read :=
    match text with
    | []        => none
    | '\\' :: r => Escape.read? f r
    | c :: r    => some (Atom.literal c, r)
  match read with
  | some (.literal c, rest) =>
    if !f.unicode ∧ 0x7F < c.toNat then none else some (.literal c, rest)
  | read => read

-- The next character beyond blanks and the start of a comment.
def peek (f : Flags) (text : List Char) : Option Char :=
  if f.spaced then
    match text.dropWhile Text.isBlank with
    | '#' :: r => (r.dropWhile Text.isBlank).head?
    | rest     => rest.head?
  else
    text.head?

-- The part of a range behind its hyphen.
def rangeFrom? (f : Flags) (first : Char) (text : List Char) : Option (CharClass × List Char) :=
  match atom? f (f.skip text) with
  | some (.literal last, rest) =>
    if first.toNat ≤ last.toNat then some (.range first.toNat last.toNat, rest) else none
  | _ => none

-- A single item or a range. A hyphen before the closing bracket or another hyphen makes no range.
def item? (f : Flags) (text : List Char) : Option (CharClass × List Char) :=
  (atom? f text).bind fun (a, rest) =>
    match f.skip rest with
    | [] => none
    | c :: r =>
      let ranged := c == '-' && peek f r != some ']' && peek f r != some '-'
      match a with
      | .literal first =>
        if ranged then rangeFrom? f first r else some (.singleton first, c :: r)
      | .cls a  => if ranged then none else some (a, c :: r)
      | .look _ => none

-- Reads up to the bracket that closes the outermost one. Each round takes a character at least, so
-- that `fuel` may be the length of the text.
def readFrom (f : Flags) (fuel : Nat) (b : Bracket) (outer : List Bracket) (text : List Char) :
    Option (Operand × List Char) :=
  match fuel with
  | 0 => none
  | fuel + 1 =>
    match f.skip text with
    | '[' :: r =>
      match asciiClass? r with
      | some (a, negated, rest) =>
        (f.negate? negated (f.fold a)).bind fun a => readFrom f fuel (b.push a 0) outer rest
      | none =>
        let (inner, rest) := opened f r
        readFrom f fuel inner (b :: outer) rest
    | ']' :: r =>
      (b.close? f).bind fun a =>
        match outer with
        | [] => some (a, r)
        | parent :: outer => readFrom f fuel (parent.push a.chars a.depth) outer r
    | '&' :: '&' :: r => readFrom f fuel (b.combine .inter) outer r
    | '-' :: '-' :: r => readFrom f fuel (b.combine .diff) outer r
    | '~' :: '~' :: r => readFrom f fuel (b.combine .symmDiff) outer r
    | [] => none
    | c :: r =>
      (item? f (c :: r)).bind fun (a, rest) => readFrom f fuel (b.push (f.fold a) 0) outer rest

-- Reads a class behind its opening bracket.
def read? (f : Flags) (text : List Char) : Option (Operand × List Char) :=
  let (b, rest) := opened f text
  readFrom f (rest.length + 1) b [] rest

end Bracket

end JsonQuery.Regex
