import JsonQuery.Regex.Extent

namespace JsonQuery.Regex

-- Expressions are put together in a normal form: no sequence or choice stands directly in another
-- one, literals do not stand side by side, and what can be a single class is one.

def ofClass (a : CharClass) (bytes : Bool) : Regex :=
  if a = .empty then never
  else match a.only? with
    | some c => literal [c]
    | none   => char a bytes

-- The parts that an expression adds to a sequence.
def parts : Regex → List Regex
  | empty     => []
  | seq parts => parts
  | a         => [a]

-- Puts a part in front of others.
def join (a : Regex) (rest : List Regex) : List Regex :=
  match a, rest with
  | literal s, literal t :: rest => literal (s ++ t) :: rest
  | a, rest => a :: rest

def ofParts (as : List Regex) : Regex :=
  match (as.flatMap parts).foldr join [] with
  | []    => empty
  | [a]   => a
  | parts => seq parts

-- The choices that an expression adds to others.
def choices : Regex → List Regex
  | alt choices => choices
  | a           => [a]

def char? : Regex → Option Char
  | literal [c] => some c
  | _           => none

def class? : Regex → Option CharClass
  | char a _ => some a
  | _        => none

-- The expression for choices that need no choice: a single one, or single characters, or classes.
def merged? (choices : List Regex) : Option Regex :=
  match choices with
  | []  => some never
  | [a] => some a
  | choices =>
    match choices.mapM char?, choices.mapM class? with
    | some chars, _ => some (ofClass (.ofRanges (chars.map fun c => (c.toNat, c.toNat))) false)
    | none, some classes => some (ofClass (classes.foldl .union .empty) false)
    | none, none => none

-- The parts at the start of both of two sequences.
def commonPrefix : List Regex → List Regex → List Regex
  | a :: as, b :: bs => if a.same b then a :: commonPrefix as bs else []
  | _, _ => []

def seq? : Regex → Option (List Regex)
  | seq parts => some parts
  | _         => none

-- The parts that all choices start with, and the rests of the choices.
def lift? (choices : List Regex) : Option (List Regex × List Regex) :=
  match choices.mapM seq? with
  | some (first :: others) =>
    match others.foldl commonPrefix first with
    | []    => none
    | front => some (front, (first :: others).map fun parts => ofParts (parts.drop front.length))
  | _ => none

-- Parts that all choices start with are written once.
def ofChoices (as : List Regex) : Regex :=
  let choices := as.flatMap choices
  match merged? choices, lift? choices with
  | some a, _ => a
  | none, some (front, rests) =>
    let rests := rests.flatMap Regex.choices
    ofParts (front ++ [(merged? rests).getD (alt rests)])
  | none, none => alt choices

-- It makes no difference to match the empty text more than once.
def ofTimes (a : Regex) (min : Nat) (max : Option Nat) (lazy : Bool) : Regex :=
  let once := a.maxWidth == some 0
  let min := if once then Min.min min 1 else min
  let max := if once then some (max.elim 1 (Min.min · 1)) else max
  if max = some 0 then empty
  else if min = 1 ∧ max = some 1 then a
  else times a min max lazy

end JsonQuery.Regex
