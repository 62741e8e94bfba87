import JsonQuery.Path.Segment

namespace JsonQuery

-- A segment as the grammar finds it. The argument of a function and the paths of a construct are
-- texts of their own, which are read only when the whole expression has been found well formed.
inductive Outline where
  | ready (s : Segment)
  | call (name : List Char) (argument : Option (List Char))
  | construct (fields : List (String × Option (List Char)))

namespace Outline

-- The length of the longest text inside.
def size : Outline → Nat
  | ready _ => 0
  | call _ argument => (argument.getD []).length
  | construct fields => (fields.map fun f => (f.2.getD []).length).foldr max 0

end Outline

end JsonQuery
