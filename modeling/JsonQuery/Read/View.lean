import JsonQuery.Error
import JsonQuery.Path.Selection

namespace JsonQuery

-- What a path has reached: a location of the document and the value there, or one computed from it.
-- After a slice, the rest of the path sees some elements of that array only, and `origin` has their
-- indices. An index that no element has counts as well, but nothing is seen of it.
structure View where
  location : Location
  node     : Json
  origin   : Option (List Nat)
  deriving DecidableEq

-- A result of a read.
structure Match where
  location : Location
  value    : Json
  deriving DecidableEq

namespace View

def root (v : Json) : View := ⟨[], v, none⟩

-- The same location with a computed value.
def replace (v : View) (value : Json) : View := ⟨v.location, value, none⟩

-- What the rest of the path sees.
def value (v : View) : Json :=
  match v.origin, v.node with
  | some origin, .arr items => .arr (origin.filterMap (items[·]?))
  | _, node => node

-- The index of the array at the location that corresponds to one behind a slice.
def sourceIndex (v : View) (i : Nat) : Nat := ((v.origin.getD [])[i]?).getD i

-- The step in the document that corresponds to a step in the view.
def source (v : View) : Step → Step
  | .index i => .index (v.sourceIndex i)
  | s        => s

def child? (v : View) (s : Step) : Option View :=
  (v.node.child? (v.source s)).map fun node => ⟨v.location ++ [v.source s], node, none⟩

-- The elements that a slice selects, which may come behind another slice.
def narrow (v : View) (s : Slice) (items : List Json) : View :=
  let len := v.origin.elim items.length List.length
  { v with origin := some ((s.indices len).map v.sourceIndex) }

-- What an addressable segment leads to.
def follow (v : View) (s : Segment) : List View :=
  match s, v.node with
  | .slice sl, .arr items => [v.narrow sl items]
  | _, _ => (s.steps v.value).filterMap v.child?

-- Why a segment cannot be followed. A selector or a wildcard that selects nothing is no obstacle.
def obstacle? (v : View) (s : Segment) : Option Error :=
  let mismatch (expected : Container) := some (.mismatch v.location expected v.value.kind)
  match s with
  | .key name _ =>
    match v.value with
    | .obj ms =>
      if Members.contains ms name then none else some (.missingKey (v.location ++ [.key name]))
    | _ => mismatch .object
  | .index i _ =>
    match v.value with
    | .arr items =>
      if (resolveIndex i items.length).isSome then none else some (.missingIndex v.location i)
    | _ => mismatch .array
  | .children _ | .selector .. =>
    match v.value with
    | .obj _ | .arr _ => none
    | _ => mismatch .either
  | .elements _ =>
    match v.value with
    | .arr _ => none
    | _ => mismatch .either
  | .slice _ =>
    match v.value with
    | .arr _ => none
    | _ => mismatch .array
  | .call .. | .literal _ | .construct _ => none

-- Why a segment cannot be read: a slice whose walk goes around comes to an index that no element has.
def stray? (v : View) (s : Segment) : Option Error :=
  match s, v.value with
  | .slice sl, .arr items =>
    ((sl.indices items.length).find? (items.length ≤ ·)).map (.outOfBounds · items.length)
  | _, _ => none

theorem source_of_origin_eq_none {v : View} (h : v.origin = none) (s : Step) : v.source s = s := by
  cases s <;> simp [source, sourceIndex, h]

end View

end JsonQuery
