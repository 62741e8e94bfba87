import JsonQuery.Regex.Automaton.Encoded
import JsonQuery.Regex.Automaton.Words
import JsonQuery.Regex.Extent

namespace JsonQuery.Regex

-- The order in which an automaton reads a text.
inductive Direction where
  | forward
  | backward
  deriving DecidableEq

namespace Build

-- A class of ASCII characters needs a single state with all of its ranges.
def ofClass (d : Direction) (a : CharClass) : Build Unit :=
  if a.ranges.all (·.2 < 0x80) then add 2 (8 * a.ranges.length)
  else match d with
    | .forward  => Forward.build a.rows
    | .backward => Backward.build a.rows

-- The words of choices that are all literals, in the order of reading.
def words? (d : Direction) (choices : List Regex) : Option (List Words.Word) :=
  choices.mapM fun
    | literal text =>
      let bytes := text.flatMap String.utf8EncodeChar
      some (match d with
        | .forward  => bytes
        | .backward => bytes.reverse)
    | _ => none

-- What is built `n` times in a row.
def exactly (a : Build Bool) (n : Nat) : Build Bool := do
  match n with
  | 0 =>
    add 1 0
    return false
  | n + 1 =>
    let e ← a
    iterate (fun e => do leave e; a) n e

-- What is built `n` times and can be left out from the end.
def optional (a : Build Bool) (n : Nat) (e : Bool) : Build Bool := do
  add 1 0
  let step (e : Bool) : Build Bool := do
    add 1 8
    leave e
    a
  let e ← iterate step n e
  leave e
  return false

-- A repetition of what is built by `a`. `advances` tells that no match of it is empty.
def repeated (a : Build Bool) (advances : Bool) (min : Nat) (max : Option Nat) : Build Bool := do
  match min, max with
  | 0, some 1 =>
    add 1 8
    let e ← a
    add 1 0
    leave e
    return false
  | 0, none =>
    if advances then
      add 1 4
      let e ← a
      leave e
      return true
    else
      let e ← a
      add 3 16
      leave e
      return false
  | min, none =>
    let e ← exactly a min
    add 1 4
    leave e
    return true
  | min, some max =>
    let e ← exactly a min
    if min = max then return e else optional a (max - min) e

mutual

-- Builds an expression and tells whether its last state has a list of choices. The groups are noted
-- in one direction only.
def ofRegex (d : Direction) : Regex → Build Bool
  | empty | look _ => do
    add 1 0
    return false
  | literal text => do
    add (textWidth text) 0
    return false
  | char a _ => do
    ofClass d a
    return false
  | group _ a =>
    match d with
    | .forward => do
      add 1 0
      let e ← ofRegex d a
      add 1 0
      leave e
      return false
    | .backward => ofRegex d a
  | seq parts => ofParts d parts
  | alt choices => do
    match words? d choices with
    | some words =>
      let m := Words.ofWords words
      add (m.states + 1) m.listBytes
    | none => ofChoices d 0 choices
    return false
  | times a min max _ => repeated (ofRegex d a) (a.minWidth.any (0 < ·)) min max

def ofParts (d : Direction) : List Regex → Build Bool
  | []  => do
    add 1 0
    return false
  | [a] => ofRegex d a
  | a :: rest =>
    match d with
    | .forward => do
      let e ← ofRegex d a
      leave e
      ofParts d rest
    | .backward => do
      let e ← ofParts d rest
      leave e
      ofRegex d a

-- Builds choices behind the first `n` ones. The states around them follow on the second one.
def ofChoices (d : Direction) (n : Nat) : List Regex → Build Unit
  | [] => pure ()
  | a :: rest => do
    let e ← ofRegex d a
    if n = 1 then add 2 0
    link
    leave e
    ofChoices d (n + 1) rest

end

-- The way to a match that starts at any place, if matches start at more than one.
def lead (fixed : Bool) : Build Unit := if fixed then add 1 0 else add 3 16

-- The automaton of a whole expression, which is taken for a group.
def whole (d : Direction) (r : Regex) : Build Unit := do
  match d with
  | .forward =>
    lead r.startsText
    let e ← ofRegex d (group 0 r)
    leave e
  | .backward =>
    lead r.endsText
    let e ← ofRegex d r
    leave e
  add 1 0

end Build

-- Whether the automata for both directions can be built.
def fits (r : Regex) : Bool :=
  (Build.whole .forward r .start).isSome && (Build.whole .backward r .start).isSome

end JsonQuery.Regex
