import JsonQuery.Json.Basic

namespace JsonQuery.Json

-- The key of a segment below a prefix. The segments at the root have none.
def flatKey (separator : Char) : Option String → String → String
  | none,       segment => segment
  | some above, segment => above ++ separator.toString ++ segment

mutual

-- The leaves below a value with their keys, in order. Leaves are the values without children.
def leaves (separator : Char) (above : Option String) : Json → List (String × Json)
  | arr (x :: rest) => leavesOfItems separator above 0 (x :: rest)
  | obj (m :: rest) => leavesOfMembers separator above (m :: rest)
  | v =>
    match above with
    | some key => [(key, v)]
    | none     => []

def leavesOfItems (separator : Char) (above : Option String) (i : Nat) :
    List Json → List (String × Json)
  | [] => []
  | x :: rest =>
    leaves separator (some (flatKey separator above i.repr)) x ++
      leavesOfItems separator above (i + 1) rest

def leavesOfMembers (separator : Char) (above : Option String) :
    List (String × Json) → List (String × Json)
  | [] => []
  | (k, x) :: rest =>
    leaves separator (some (flatKey separator above k)) x ++
      leavesOfMembers separator above rest

end

-- The flat map of a document. A root without children is kept under the empty key, unless it is the
-- empty object. Of two leaves with one key the later one stays.
def flatMembers (separator : Char) (v : Json) : List (String × Json) :=
  match v with
  | obj [] => []
  | obj _ | arr (_ :: _) => Members.ofList (v.leaves separator none)
  | root => [("", root)]

end JsonQuery.Json
