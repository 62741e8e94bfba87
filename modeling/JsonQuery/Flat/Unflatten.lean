import JsonQuery.Error
import JsonQuery.Number.Integer

namespace JsonQuery.Flat

-- What the keys of a flat map say about one segment: the rests of the keys behind it, with their
-- values. A key that ends with the segment has no rest.
abbrev Group := List Char × List (Option (List Char) × Json)

-- The first segment of a key and what comes after the separator.
def cutKey (separator : Char) (key : List Char) : List Char × Option (List Char) :=
  match key.dropWhile (· != separator) with
  | []        => (key, none)
  | _ :: rest => (key.takeWhile (· != separator), some rest)

-- Groups come in the order of their first members.
def addTo (groups : List Group) (head : List Char) (member : Option (List Char) × Json) :
    List Group :=
  match groups with
  | [] => [(head, [member])]
  | (h, members) :: rest =>
    if h = head then (h, members ++ [member]) :: rest else (h, members) :: addTo rest head member

def group (separator : Char) (entries : List (List Char × Json)) : List Group :=
  entries.foldl
    (fun groups (key, v) =>
      let (head, rest) := cutKey separator key
      addTo groups head (rest, v))
    []

-- The index that a segment names: digits without leading zeros.
def arrayIndex? (segment : List Char) : Option Nat :=
  (unsigned64? segment).filter fun i => Nat.toDigits 10 i == segment

-- An array with these elements at these indices and null in all other places.
def fill (length : Nat) (elements : List (Nat × Json)) : List Json :=
  elements.foldl (fun items (i, x) => items.set i x) (List.replicate length .null)

-- The array of values with these indices. No array has room for 2^63 elements.
def assembleArray (maxPadding : Nat) (above : List Char) (first : Nat) (others : List Nat)
    (values : List Json) : Except Error Json :=
  let largest := others.foldl max first
  let missing := largest - others.length
  if maxPadding < missing then .error (.tooSparse (String.ofList above) missing maxPadding)
  else if 0x8000000000000000 ≤ largest + 1 then .error (.tooLong (largest + 1))
  else .ok (.arr (fill (largest + 1) ((first :: others).zip values)))

-- The container of children with these segments: an array if all of them are indices, and an object
-- otherwise.
def assemble (maxPadding : Nat) (above : List Char) (children : List (List Char × Json)) :
    Except Error Json :=
  match children.mapM fun (segment, _) => arrayIndex? segment with
  | some (first :: others) => assembleArray maxPadding above first others (children.map (·.2))
  | _ => .ok (.obj (children.map fun (segment, x) => (String.ofList segment, x)))

def join (separator : Char) (above segment : List Char) : List Char :=
  if above.isEmpty then segment else above ++ separator :: segment

-- The value that a group stands for. `nested` rebuilds what lies below it.
def member (path : List Char) (members : List (Option (List Char) × Json))
    (nested : List (List Char × Json) → Except Error Json) : Except Error Json :=
  match members with
  | [(none, leaf)] => .ok leaf
  | members =>
    if members.any fun (rest, _) => rest.isNone then
      .error (.valueAndPrefix (String.ofList path))
    else
      nested (members.filterMap fun (rest, v) => rest.map (·, v))

-- Rebuilds the value below the key `above`.
def build (separator : Char) (maxPadding limit depth : Nat) (above : List Char)
    (entries : List (List Char × Json)) : Except Error Json :=
  if limit < depth then .error (.tooDeep limit)
  else do
    let children ← (group separator entries).mapM fun (segment, members) => do
      let path := join separator above segment
      let x ← member path members fun nested =>
        build separator maxPadding limit (depth + 1) path nested
      return (segment, x)
    assemble maxPadding above children
termination_by limit + 1 - depth

-- Rebuilds the document of a flat map. The empty key holds a whole document and stands alone.
def unflatten (separator : Char) (maxPadding limit : Nat) (flat : List (String × Json)) :
    Except Error Json :=
  match Members.get? flat "" with
  | some root => if flat.length = 1 then .ok root else .error .rootNotAlone
  | none => build separator maxPadding limit 0 [] (flat.map fun (k, v) => (k.toList, v))

end JsonQuery.Flat
