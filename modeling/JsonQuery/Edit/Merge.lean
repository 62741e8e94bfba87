import JsonQuery.Error

namespace JsonQuery.Json

mutual

-- Lays one value over another one. Objects are merged member by member, and everything else takes
-- the place of what it is laid over.
def merge (limit depth : Nat) (base : Json) : (overlay : Json) → Except Error Json
  | obj overlay =>
    if limit < depth then .error (.tooDeep limit)
    else
      match base with
      | obj ms => (mergeMembers limit depth ms overlay).map obj
      | _      => .ok (obj overlay)
  | v => if limit < depth then .error (.tooDeep limit) else .ok v

def mergeMembers (limit depth : Nat) (ms : List (String × Json)) :
    (overlay : List (String × Json)) → Except Error (List (String × Json))
  | [] => .ok ms
  | (k, v) :: rest =>
    match Members.get? ms k with
    | some old => do
      let new ← merge limit (depth + 1) old v
      mergeMembers limit depth (Members.insert ms k new) rest
    | none => mergeMembers limit depth (Members.insert ms k v) rest

end

end JsonQuery.Json
