import JsonQuery.Edit.Change
import JsonQuery.Edit.Operation
import JsonQuery.Edit.Target

namespace JsonQuery

namespace Json

def itemsOf : Json → List Json
  | arr items => items
  | _         => []

def membersOf : Json → List (String × Json)
  | obj ms => ms
  | _      => []

-- Writes a value at a location and makes the containers on the way. A value of the wrong kind gives
-- way to an empty container, and an array is filled up with nulls.
def put (v : Json) (l : Location) (x : Json) : Json :=
  match l with
  | [] => x
  | .key k :: rest =>
    let ms := v.membersOf
    obj (Members.insert ms k (((Members.get? ms k).getD null).put rest x))
  | .index i :: rest =>
    let items := v.itemsOf ++ List.replicate (i + 1 - v.itemsOf.length) null
    arr (items.set i ((items[i]?.getD null).put rest x))

end Json

namespace Path

-- The steps of a path that does not exist yet. An index that counts from the end names no place in
-- an array that is still to be made. `place` is where the path begins.
def newSteps (place : Location) (p : Path) : Except Error Location :=
  p.mapM fun
    | .key name _ => .ok (.key name)
    | .index i _  => if i < 0 then .error (.negativeIndex place i) else .ok (.index i.toNat)
    | s           => .error (.notCreatable s.render)

end Path

-- Refuses steps that would add too many nulls to an array. The first one starts in an array of
-- `length` elements, and all others in new ones.
def checkPadding (limit : Nat) (place : Location) (length : Nat) : Location → Except Error Unit
  | [] => .ok ()
  | s :: rest =>
    match s with
    | .index i =>
      if limit < i - length then .error (.tooFar (place ++ [s]) limit)
      else checkPadding limit (place ++ [s]) 0 rest
    | .key _ => checkPadding limit (place ++ [s]) 0 rest

namespace Path

-- Writes to a path of keys and indices that does not exist. What exists of it is rebuilt with the
-- rest below it and put back in its place.
def create (maxPadding : Nat) (op : Operation) (v : Json) (p : Path) (x : Json) :
    Except Error Json := do
  let (view, rest) := (View.root v).deepest p
  let steps ← newSteps view.location rest
  checkPadding maxPadding view.location view.value.itemsOf.length steps
  let x ← op.apply none x
  Change.applyAll v [.replace view.location (view.value.put steps x)]

end Path

end JsonQuery
