import JsonQuery.Regex.Automaton.Compile
import JsonQuery.Regex.Bracket
import JsonQuery.Regex.Normal
import JsonQuery.Text.Numeric

namespace JsonQuery.Regex

-- A part of an expression and the depth of its nesting, which counts repetitions, groups, brackets
-- and the sequences and choices with several parts.
structure Part where
  regex : Regex
  depth : Nat

-- An item of a sequence. A change of flags is one as well, although it matches nothing.
inductive Item where
  | part (p : Part)
  | flags

namespace Item

def regex : Item → Regex
  | part p => p.regex
  | flags  => .empty

def depth : Item → Nat
  | part p => p.depth
  | flags  => 0

end Item

-- The expression of an open group, or the whole one: the finished choices and the items of the last
-- one, the latest first, and the flags that are in force behind the group.
structure Level where
  flags   : Flags
  -- The number of a group, unless it is there for its flags or its parts only.
  index   : Option Nat
  choices : List Part
  items   : List Item

namespace Level

def start (f : Flags) (index : Option Nat) : Level := ⟨f, index, [], []⟩

def push (l : Level) (r : Regex) (depth : Nat) : Level :=
  { l with items := .part ⟨r, depth⟩ :: l.items }

-- Notes a change of flags.
def mark (l : Level) : Level := { l with items := .flags :: l.items }

-- The sequence of the items.
def sequence (l : Level) : Part :=
  let deepest := (l.items.map Item.depth).foldl max 0
  ⟨.ofParts (l.items.reverse.map Item.regex), if l.items.length ≤ 1 then deepest else deepest + 1⟩

-- Goes on to the next choice.
def next (l : Level) : Level := { l with choices := l.sequence :: l.choices, items := [] }

-- The whole expression of the level.
def value (l : Level) : Part :=
  if l.choices = [] then l.sequence
  else
    let choices := (l.sequence :: l.choices).reverse
    ⟨.ofChoices (choices.map Part.regex), (choices.map Part.depth).foldl max 0 + 1⟩

-- Takes the last item away for a repetition, which needs something to repeat.
def pop? (l : Level) : Option (Part × Level) :=
  match l.items with
  | .part p :: rest => some (p, { l with items := rest })
  | _ => none

def repeat? (l : Level) (min : Nat) (max : Option Nat) (lazy : Bool) : Option Level :=
  l.pop?.map fun (p, l) => l.push (.ofTimes p.regex min max lazy) (p.depth + 1)

end Level

-- How far an expression has been read: the flags in force, the number of groups and their names,
-- and the open groups, the innermost one first.
structure State where
  flags  : Flags
  groups : Nat
  names  : List (List Char)
  level  : Level
  outer  : List Level

namespace State

def start (f : Flags) : State := ⟨f, 0, [], .start f none, []⟩

def push (s : State) (r : Regex) (depth : Nat) : State := { s with level := s.level.push r depth }

-- Opens a group with its own flags.
def enter (s : State) (f : Flags) (index : Option Nat) : State :=
  { s with flags := f, level := .start s.flags index, outer := s.level :: s.outer }

-- Opens a group that has a number.
def enterNumbered (s : State) : State :=
  { s with groups := s.groups + 1 }.enter s.flags (some (s.groups + 1))

-- Closes a group.
def leave? (s : State) : Option State :=
  match s.outer with
  | [] => none
  | parent :: outer =>
    let p := s.level.value
    let r := s.level.index.elim p.regex (Regex.group · p.regex)
    some { s with flags := s.level.flags, level := parent.push r (p.depth + 1), outer }

-- The names of groups start with a letter.
def isNameChar (first : Bool) (c : Char) : Bool :=
  c = '_' || Text.isAlphabetic c ||
    (!first && (Text.isNumeric c || c = '.' || c = '[' || c = ']'))

-- The name of a group up to the angle behind it. No two groups have one name.
def named? (s : State) (text : List Char) : Option (State × List Char) :=
  match text.span (· != '>') with
  | (c :: name, _ :: rest) =>
    if isNameChar true c ∧ name.all (isNameChar false) ∧ !s.names.contains (c :: name) then
      some ({ s with names := (c :: name) :: s.names }.enterNumbered, rest)
    else
      none
  | _ => none

-- Reads what stands behind an opening parenthesis: the start of a group or a change of flags. There
-- is no way to look around.
def group? (s : State) (text : List Char) : Option (State × List Char) :=
  match s.flags.skip text with
  | '?' :: '=' :: _ | '?' :: '!' :: _ | '?' :: '<' :: '=' :: _ | '?' :: '<' :: '!' :: _ => none
  | '?' :: 'P' :: '<' :: r | '?' :: '<' :: r => s.named? r
  | '?' :: r =>
    (s.flags.read? r).bind fun (f, letters, last, rest) =>
      if last = ':' then some (s.enter f none, rest)
      else if letters = [] then none
      else some ({ s with flags := f, level := s.level.mark }, rest)
  | text => some (s.enterNumbered, text)

def setLevel? (s : State) (l : Option Level) : Option State := l.map fun l => { s with level := l }

-- A repetition. A question mark right behind it changes which match is preferred.
def repeat? (s : State) (min : Nat) (max : Option Nat) (text : List Char) :
    Option (State × List Char) :=
  let (marked, rest) := match text with
    | '?' :: r => (true, r)
    | _        => (false, text)
  (s.setLevel? (s.level.repeat? min max (marked != s.flags.lazy))).map (·, rest)

-- A number of repetitions, with blanks around it.
def count? (f : Flags) (text : List Char) : Option (Nat × List Char) :=
  let (digits, rest) := f.span Char.isDigit (text.dropWhile Text.isBlank)
  let n := digits.foldl (fun n c => 10 * n + (c.toNat - 0x30)) 0
  if digits = [] ∨ 0x100000000 ≤ n then none else some (n, rest.dropWhile Text.isBlank)

-- The numbers of a repetition behind the opening brace.
def bounds? (f : Flags) (text : List Char) : Option (Nat × Option Nat × List Char) :=
  (count? f (f.skip text)).bind fun
    | (n, '}' :: rest) => some (n, some n, rest)
    | (n, ',' :: rest) =>
      match f.skip rest with
      | '}' :: rest => some (n, none, rest)
      | rest =>
        (count? f rest).bind fun
          | (m, '}' :: rest) => if n ≤ m then some (n, some m, rest) else none
          | _ => none
    | _ => none

def counted? (s : State) (text : List Char) : Option (State × List Char) :=
  (bounds? s.flags text).bind fun (min, max, rest) => s.repeat? min max (s.flags.skip rest)

def pushClass (s : State) (a : CharClass) (depth : Nat) : State :=
  s.push (.ofClass a !s.flags.unicode) depth

def pushChar (s : State) (c : Char) : State := s.pushClass (s.flags.fold (.singleton c)) 0

def pushAtom (s : State) : Atom → State
  | .literal c => s.pushChar c
  | .cls a     => s.pushClass a 0
  | .look l    => s.push (.look l) 0

-- Reads the part of an expression that starts with a character.
def step? (s : State) (c : Char) (text : List Char) : Option (State × List Char) :=
  match c with
  | '(' => s.group? text
  | ')' => s.leave?.map (·, text)
  | '|' => some ({ s with level := s.level.next }, text)
  | '[' => (Bracket.read? s.flags text).map fun (a, rest) => (s.pushClass a.chars a.depth, rest)
  | '?' => s.repeat? 0 (some 1) text
  | '*' => s.repeat? 0 none text
  | '+' => s.repeat? 1 none text
  | '{' => s.counted? text
  | '\\' => (Escape.read? s.flags text).map fun (a, rest) => (s.pushAtom a, rest)
  | '.' => s.flags.dot?.map fun a => (s.pushClass a 0, text)
  | '^' => some (s.push (.look s.flags.caret) 0, text)
  | '$' => some (s.push (.look s.flags.dollar) 0, text)
  | c   => some (s.pushChar c, text)

-- The expression, provided that all groups are closed.
def finish? (s : State) : Option Part :=
  match s.outer with
  | []     => some s.level.value
  | _ :: _ => none

-- Reads up to the end. Each round takes a character at least, so that `fuel` may be the length of
-- the text.
def readFrom (fuel : Nat) (s : State) (text : List Char) : Option Part :=
  match fuel with
  | 0 => none
  | fuel + 1 =>
    match s.flags.skip text with
    | []     => s.finish?
    | c :: r => (s.step? c r).bind fun (s, rest) => readFrom fuel s rest

end State

def depthLimit : Nat := 250

-- Reads a regular expression.
def read? (ignoreCase : Bool) (text : List Char) : Option Regex :=
  match State.readFrom (text.length + 1) (.start { Flags.default with ignoreCase }) text with
  | some p => if p.depth ≤ depthLimit ∧ p.regex.fits then some p.regex else none
  | none   => none

end JsonQuery.Regex
