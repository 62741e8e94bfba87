import JsonQuery.Edit.Create
import JsonQuery.Options

namespace JsonQuery.Path

-- The change that writes to a location of the document `v`.
def writeChange (op : Operation) (v x : Json) (l : Location) : Except Error Change :=
  match v.at? l with
  | some old => (op.apply (some old) x).map (.replace l)
  | none     => (op.apply none x).map (.add l)

-- Writes a value at all locations that a path leads to. If there are none, a path of keys and
-- indices is created or reported as missing, and any other path leaves the document as it is.
def write (o : Options) (creating : Bool) (op : Operation) (v : Json) (p : Path) (x : Json) :
    Except Error Json := do
  p.ensureAddressable
  let locations ← targets o.maxDepth true v p
  if locations.isEmpty then
    if !p.isConcrete then return v
    else if creating then p.create o.maxPadding op v x
    else ((View.root v).resolve p).map fun _ => v
  else
    let changes ← locations.mapM (writeChange op v x)
    Change.applyAll v changes

-- The locations to be removed: a path of keys and indices has to exist unless that is tolerated.
def removals (o : Options) (v : Json) (p : Path) : Except Error (List Location) :=
  if p.isConcrete then
    match (View.root v).resolve p with
    | .ok l => .ok [l]
    | .error e => if o.tolerantDelete || p.any (·.isOptional) then .ok [] else .error e
  else
    targets o.maxDepth false v p

-- From the last location to the first one, so that no removal moves a location that is still to be
-- removed.
def removalOrder (locations : List Location) : List Location :=
  (locations.mergeSort fun a b => a.compare b != .gt).eraseReps.reverse

-- Removes all locations that a path leads to.
def delete (o : Options) (v : Json) (p : Path) : Except Error Json := do
  p.ensureAddressable
  if p.isEmpty then .error .rootRemoved
  else
    let locations ← removals o v p
    Change.applyAll v ((removalOrder locations).map .remove)

end JsonQuery.Path
