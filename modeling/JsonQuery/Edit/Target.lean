import JsonQuery.Path.Printer
import JsonQuery.Read.View

namespace JsonQuery

-- The step to a child that a value can get. Only an object takes what it does not have.
def Segment.newStep? : Segment → Json → Option Step
  | key name _, .obj _ => some (.key name)
  | _, _ => none

namespace View

-- The locations that the last segment of a path leads to. A key that an object does not have yet
-- can be one if a write asks for it.
def locations (v : View) (last : Segment) (absent : Bool) : List Location :=
  let found := last.steps v.value
  let steps := if absent && found.isEmpty then (last.newStep? v.value).toList else found
  steps.map fun s => v.location ++ [v.source s]

-- Follows a path of keys and indices as far as it leads. What is left of the path comes second.
def deepest (v : View) : Path → View × Path
  | [] => (v, [])
  | s :: rest =>
    match v.follow s with
    | next :: _ => next.deepest rest
    | []        => (v, s :: rest)

-- Why a value does not have the child that a key or an index asks for.
def absence (v : View) (s : Segment) : Error :=
  match s, v.value with
  | .key name _, .obj _ => .missingKey (v.location ++ [.key name])
  | .index i _, .arr _  => .missingIndex v.location i
  | .key .., found      => .mismatch v.location .object found.kind
  | _, found            => .mismatch v.location .array found.kind

-- The location of a path of keys and indices, or the reason why it does not exist.
def resolve (v : View) (p : Path) : Except Error Location :=
  match v.deepest p with
  | (v, []) => .ok v.location
  | (v, s :: _) => .error (v.absence s)

end View

namespace Path

def isConcrete (p : Path) : Bool := p.all (·.isConcrete)

-- Computed values cannot be written.
def ensureAddressable (p : Path) : Except Error Unit :=
  match p.find? (!·.isAddressable) with
  | some s => .error (.notAddressable s.render)
  | none   => .ok ()

-- The views that a path without its last segment leads to, level by level.
def frontier (v : Json) (p : Path) : List View :=
  p.dropLast.foldl (fun views s => views.flatMap (·.follow s)) [.root v]

-- The locations that a path leads to.
def targets (limit : Nat) (absent : Bool) (v : Json) (p : Path) : Except Error (List Location) :=
  if limit < p.length then .error (.tooDeep limit)
  else
    match p.getLast? with
    | none      => .ok [[]]
    | some last => .ok ((frontier v p).flatMap (·.locations last absent))

end Path

end JsonQuery
