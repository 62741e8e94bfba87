import JsonQuery.Number.Basic

namespace JsonQuery

-- A half-open range of an array with optional bounds and step. Negative bounds count from the end.
structure Slice where
  start : Option Int
  stop  : Option Int
  step  : Option Int
  deriving DecidableEq

namespace Slice

variable (s : Slice) (len : Nat)

def stride : Int := s.step.getD 1

-- Bounds and indices are 64 bit integers. A sum of two of them goes around at the ends of their
-- range.
def wrap (n : Int) : Int := (n + 0x8000000000000000) % 0x10000000000000000 - 0x8000000000000000

-- The bounds that an upward and a downward walk can start from and stop at.
def lowest : Int := if 0 < s.stride then 0 else -1

def highest : Int := if 0 < s.stride then wrap len else wrap (wrap len - 1)

def clamp (bound : Int) : Int :=
  if bound < 0 then max (wrap (bound + wrap len)) s.lowest else min bound (s.highest len)

def first : Int :=
  match s.start with
  | some bound => s.clamp len bound
  | none       => if 0 < s.stride then s.lowest else s.highest len

-- Where the walk has to stop. This index is not taken any more.
def limit : Int :=
  match s.stop with
  | some bound => s.clamp len bound
  | none       => if 0 < s.stride then s.highest len else s.lowest

def walk (limit stride : Int) : Nat → Int → List Int
  | 0, _ => []
  | fuel + 1, i =>
    if (0 < stride ∧ i < limit) ∨ (stride < 0 ∧ limit < i) then
      i :: walk limit stride fuel (wrap (i + stride))
    else
      []

-- The indices of an array of `len` elements that the slice selects, in the order of the walk and
-- read as unsigned numbers. A step of zero selects nothing. A step so large that the walk goes
-- around brings in indices that no element has. The walk is cut off once it has visited twice as
-- many indices as there are elements.
def indices : List Nat :=
  if s.stride = 0 ∨ len = 0 then []
  else
    (walk (s.limit len) s.stride (2 * len + 2) (s.first len)).map fun i =>
      (i % 0x10000000000000000).toNat

def contains (index : Nat) : Bool := (s.indices len).contains index

-- The bounds with a colon between them, and the step after a second one.
def text : List Char :=
  (s.start.elim [] integerText) ++ ':' :: (s.stop.elim [] integerText) ++
    s.step.elim [] (fun n => ':' :: integerText n)

end Slice

end JsonQuery
