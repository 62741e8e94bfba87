import JsonQuery.Json.Location
import JsonQuery.Path.Segment

namespace JsonQuery

namespace Json

mutual

-- Whether a value fits a wanted one: an object has to have members that fit those of a wanted
-- object and may have others, and everything else has to be equal.
def fits : (actual want : Json) → Bool
  | .obj actual, .obj want => fitsMembers actual want
  | actual,      want      => actual.equal want

def fitsMembers (actual : List (String × Json)) : (want : List (String × Json)) → Bool
  | [] => true
  | (key, want) :: rest =>
    (match Members.get? actual key with
      | some value => fits value want
      | none       => false) && fitsMembers actual rest

end

end Json

namespace Predicate

-- Whether a predicate accepts a value at its place. A predicate that makes no sense there does not.
def accepts (p : Predicate) (place : Place) (v : Json) : Bool :=
  match p with
  | any => true
  | compare key op literal =>
    match v with
    | .obj ms =>
      match Members.get? ms key with
      | some actual => (actual.compare? literal).any op.holds
      | none        => false
    | _ => false
  | members pattern =>
    match v with
    | .obj ms => Json.fitsMembers ms pattern
    | _       => false
  | slice s =>
    match place with
    | .index i len => s.contains len i
    | .name _      => false
  | custom test => test place v

-- The steps to the children of a value that a predicate accepts.
def select (p : Predicate) : Json → List Step
  | .obj ms    => (ms.filter fun (k, v) => p.accepts (.name k) v).map fun (k, _) => .key k
  | .arr items =>
    (items.zipIdx.filter fun (v, i) => p.accepts (.index i items.length) v).map fun (_, i) =>
      .index i
  | _ => []

end Predicate

-- The position that an index names in an array of `len` elements, if there is one.
def resolveIndex (i : Int) (len : Nat) : Option Nat :=
  if i < 0 then
    if i.natAbs ≤ len then some (len - i.natAbs) else none
  else
    if i.toNat < len then some i.toNat else none

theorem resolveIndex_lt {i : Int} {len n : Nat} (h : resolveIndex i len = some n) : n < len := by
  unfold resolveIndex at h
  split at h <;> split at h <;> cases h <;> omega

theorem resolveIndex_ofNat {n len : Nat} (h : n < len) : resolveIndex n len = some n := by
  have : ¬ (n : Int) < 0 := by omega
  simp [resolveIndex, h, this]

namespace Segment

-- The steps to the children of a value that an addressable segment names, in order.
def steps : Segment → Json → List Step
  | key name _, .obj ms =>
    if Members.contains ms name then [.key name] else []
  | index i _, .arr items => (resolveIndex i items.length).toList.map .index
  | children _, v => v.steps
  | elements _, .arr items => (Json.arr items).steps
  | slice s, .arr items => (s.indices items.length).map .index
  | selector p _, v => p.select v
  | _, _ => []

end Segment

end JsonQuery
