import JsonQuery.Json.Printer

namespace JsonQuery

namespace Json

mutual

-- Equality up to the representation of numbers and the order of members. Numbers are compared after
-- rounding them to binary64.
def equal : Json → Json → Bool
  | null,   null   => true
  | bool a, bool b => a == b
  | num a,  num b  => a.approx.equals b.approx
  | str a,  str b  => a == b
  | arr a,  arr b  => equalItems a b
  | obj a,  obj b  => a.length == b.length && equalMembers a b
  | _,      _      => false

def equalItems : List Json → List Json → Bool
  | [],      []      => true
  | a :: as, b :: bs => equal a b && equalItems as bs
  | _,       _       => false

-- Whether every member of the first object has an equal one in the second.
def equalMembers : List (String × Json) → List (String × Json) → Bool
  | [], _ => true
  | (key, a) :: rest, other =>
    (match Members.get? other key with
      | some b => equal a b
      | none   => false) && equalMembers rest other

end

mutual

-- Equality of representations up to the order of members. Integers and floats differ, the two
-- zeros do not.
def same : Json → Json → Bool
  | null,   null   => true
  | bool a, bool b => a == b
  | num (.int a), num (.int b) => a == b
  | num (.float a), num (.float b) => a.units == b.units
  | str a,  str b  => a == b
  | arr a,  arr b  => sameItems a b
  | obj a,  obj b  => a.length == b.length && sameMembers a b
  | _,      _      => false

def sameItems : List Json → List Json → Bool
  | [],      []      => true
  | a :: as, b :: bs => same a b && sameItems as bs
  | _,       _       => false

def sameMembers : List (String × Json) → List (String × Json) → Bool
  | [], _ => true
  | (key, a) :: rest, other =>
    (match Members.get? other key with
      | some b => same a b
      | none   => false) && sameMembers rest other

end

-- The order of two numbers, two strings or two truth values. Strings are ordered by code points.
def compare? : Json → Json → Option Ordering
  | num a,  num b  => a.approx.compare? b.approx
  | str a,  str b  => some (compare a b)
  | bool a, bool b => some (compare a b)
  | _,      _      => none

end Json

-- How the elements of an array are ordered.
inductive Collation where
  -- By value: the elements are all numbers, all strings or all truth values.
  | natural
  -- By their texts.
  | textual
  deriving DecidableEq

namespace Collation

def of (items : List Json) : Collation :=
  match items with
  | [] => natural
  | first :: rest =>
    if [Kind.number, Kind.string, Kind.boolean].contains first.kind &&
        rest.all (·.kind == first.kind) then
      natural
    else
      textual

-- Numbers of equal value are told apart only by the sign of zero.
def compare : Collation → Json → Json → Ordering
  | natural, .num a, .num b => a.approx.totalCompare b.approx
  | natural, a, b => (a.compare? b).getD .eq
  | textual, a, b => Ord.compare a.display b.display

end Collation

end JsonQuery
