import JsonQuery.Edit.Merge
import JsonQuery.Edit.Write
import JsonQuery.Flat.Flatten
import JsonQuery.Flat.Unflatten
import JsonQuery.Path.Parser
import JsonQuery.Read.Evaluate
import JsonQuery.Search.Cursor

namespace JsonQuery

-- A path with the options that it is used with.
structure Query where
  path    : Path
  options : Options

namespace Query

def ofPath (p : Path) : Query := ⟨p, .default⟩

def ofString (expression : String) : Except Error Query := (Path.ofString expression).map ofPath

def render (q : Query) : String := Path.render q.path

def cursor (q : Query) (v : Json) : Cursor := q.path.cursor q.options v

-- All results, or the first one alone if the options say so.
def get (q : Query) (v : Json) : Except Error (List Json) :=
  (q.cursor v).all.map fun found => found.map (·.value)

def first? (q : Query) (v : Json) : Except Error (Option Json) :=
  (q.path.cursor { q.options with onlyFirst := true } v).first?

def getD (q : Query) (v default : Json) : Except Error Json := (q.first? v).map (·.getD default)

def has (q : Query) (v : Json) : Except Error Bool := (q.first? v).map (·.isSome)

def write (q : Query) (op : Operation) (v x : Json) : Except Error Json :=
  q.path.write q.options q.options.createMissing op v x

def delete (q : Query) (v : Json) : Except Error Json := q.path.delete q.options v

end Query

namespace Path

-- Writes values one after another. The first error ends it.
def writeAll (o : Options) (v : Json) : List (Path × Json) → Except Error Json
  | [] => .ok v
  | (p, x) :: rest => do
    let v ← p.write o o.createMissing .set v x
    writeAll o v rest

-- Writes the first result of the path `p`, read from `source`, to the path `q` of `target`. If
-- there is none the default is written, and without a default nothing is.
def copy (o : Options) (source target : Json) (p q : Path) (default? : Option Json) :
    Except Error Json := do
  let found ← (p.cursor { o with onlyFirst := true } source).first?
  match found.or default? with
  | some x => q.write o o.createMissing .set target x
  | none   => return target

end Path

namespace Json

def mergeWith (o : Options) (base overlay : Json) : Except Error Json :=
  base.merge o.maxDepth 0 overlay

def flat (o : Options) (v : Json) : Json := .obj (v.flatMembers o.separator.char)

def unflat (o : Options) (members : List (String × Json)) : Except Error Json :=
  Flat.unflatten o.separator.char o.maxPadding o.maxDepth members

-- The locations of all values that match by themselves or by their keys.
def findPaths (o : SearchOptions) (m : Matcher) (v : Json) : Except Error (List Location) :=
  (Search.start m o v).all

-- The same locations with the values there.
def findValues (o : SearchOptions) (m : Matcher) (v : Json) :
    Except Error (List (Location × Json)) :=
  (v.findPaths o m).map fun found => found.map fun l => (l, (v.at? l).getD .null)

end Json

end JsonQuery
