import JsonQuery.Error
import JsonQuery.Options
import JsonQuery.Path.Segment

namespace JsonQuery

def Descendants.accepts : Option Descendants → Json → Bool
  | none, _ => true
  | some objects, v => v.kind == .object
  | some arrays, v  => v.kind == .array
  | some scalars, v => !v.isContainer

namespace Json

mutual

-- The paths to all values below a value, each one before those below it. `path` leads to the value.
-- Every value is visited, and it is an error if one lies too deep.
def pathsBelow (only : Option Descendants) (limit depth : Nat) (path : List Json) :
    Json → Except Error (List Json)
  | arr items =>
    if limit < depth then .error (.tooDeep limit)
    else pathsOfItems only limit depth path 0 items
  | obj members =>
    if limit < depth then .error (.tooDeep limit)
    else pathsOfMembers only limit depth path members
  | _ => if limit < depth then .error (.tooDeep limit) else .ok []

def pathsOfItems (only : Option Descendants) (limit depth : Nat) (path : List Json) (i : Nat) :
    List Json → Except Error (List Json)
  | [] => .ok []
  | v :: rest => do
    let here := path ++ [ofNat i]
    let below ← pathsBelow only limit (deeper depth) here v
    let others ← pathsOfItems only limit depth path (i + 1) rest
    return (if Descendants.accepts only v then [arr here] else []) ++ below ++ others

def pathsOfMembers (only : Option Descendants) (limit depth : Nat) (path : List Json) :
    List (String × Json) → Except Error (List Json)
  | [] => .ok []
  | (k, v) :: rest => do
    let here := path ++ [str k]
    let below ← pathsBelow only limit (deeper depth) here v
    let others ← pathsOfMembers only limit depth path rest
    return (if Descendants.accepts only v then [arr here] else []) ++ below ++ others

end

mutual

-- The elements of an array with the elements of nested arrays in their places. `levels` counts how
-- often an array may be opened, and without it there is no end to that.
def flattenItem (limit : Nat) (levels : Option Nat) (depth : Nat) :
    Json → Except Error (List Json)
  | arr items =>
    if levels = some 0 then .ok [arr items]
    else if limit < deeper depth then .error (.tooDeep limit)
    else flattenItems limit (levels.map (· - 1)) (deeper depth) items
  | v => .ok [v]

def flattenItems (limit : Nat) (levels : Option Nat) (depth : Nat) :
    List Json → Except Error (List Json)
  | [] => .ok []
  | v :: rest => do
    let first ← flattenItem limit levels depth v
    let others ← flattenItems limit levels depth rest
    return first ++ others

end

def paths (only : Option Descendants) (limit depth : Nat) (v : Json) : Except Error Json :=
  (pathsBelow only limit depth [] v).map arr

def flatten (limit : Nat) (levels : Option Nat) (depth : Nat) : Json → Except Error Json
  | arr items =>
    if limit < depth then .error (.tooDeep limit)
    else (flattenItems limit levels depth items).map arr
  | _ => .ok null

end Json

end JsonQuery
