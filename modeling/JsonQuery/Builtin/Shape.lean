import JsonQuery.Builtin.Text
import JsonQuery.Json.Order

namespace JsonQuery.Json

-- The keys of an object in the order of their code points, or the indices of an array.
def keys : Json → Json
  | obj members =>
    arr (((Members.keys members).mergeSort fun a b => compare a b != .gt).map str)
  | arr items => arr ((List.range items.length).map ofNat)
  | _ => null

-- The number of members, elements or characters. Null has the length zero.
def length : Json → Json
  | obj members => ofNat members.length
  | arr items   => ofNat items.length
  | str s       => ofNat s.length
  | null        => ofNat 0
  | _           => null

def typeName (v : Json) : Json := str v.kind.name

-- Whether an object has a key or an array an index.
def has (v key : Json) : Bool :=
  match v, key with
  | obj members, str k => Members.contains members k
  | arr items, num n =>
    match n.toInt64? with
    | some i => 0 ≤ i ∧ i < items.length
    | none   => false
  | _, _ => false

-- Whether a string has a part, an array an element or an object a key.
def contains (v needle : Json) : Json :=
  match v, needle with
  | str s, str part => bool (Text.contains s part)
  | arr items, _ => bool (items.any (·.equal needle))
  | obj members, str k => bool (Members.contains members k)
  | _, _ => null

end JsonQuery.Json
