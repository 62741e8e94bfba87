import JsonQuery.Builtin.Nesting
import JsonQuery.Builtin.Order
import JsonQuery.Builtin.Shape
import JsonQuery.Builtin.Sum
import JsonQuery.Options
import JsonQuery.Read.Cursor

namespace JsonQuery

def Arithmetic.compute : Arithmetic → Binary64 → Binary64 → Binary64
  | mul => Binary64.mul
  | add => Binary64.add

-- The meaning of an addressable segment. An optional index at the end of a path has null as its
-- result if it leads nowhere. Otherwise a segment that leads nowhere ends its branch, or in a
-- strict read the whole read unless it is optional. A slice that leads out of its array ends every
-- read.
def Segment.locate (o : Options) (s : Segment) : Stage := fun last _ v =>
  match s, last, v.follow s with
  | .index _ true, true, [] => .ok (.found ⟨v.location, .null⟩)
  | _, _, views =>
    match (v.stray? s).or (if o.strict && !s.isOptional then v.obstacle? s else none) with
    | some e => .error e
    | none   => .ok (.onward views)

-- The value of a field with these results.
def fieldValue : List Match → Json
  | []  => .null
  | [m] => m.value
  | ms  => .arr (ms.map (·.value))

mutual

-- The meaning of a segment. Computed values keep the location of the value that they come from.
def Segment.stage (o : Options) : Segment → Stage
  | .call f _ => fun _ depth v => (f.apply o depth v.value).map fun x => .onward [v.replace x]
  | .literal x => fun _ _ v => .ok (.onward [v.replace x])
  | .construct fields => fun _ depth v =>
    (Path.fieldValues o (deeper depth) v.value fields).map fun ms =>
      .onward [v.replace (.obj (Members.ofList ms))]
  | .key name q   => Segment.locate o (.key name q)
  | .index i q    => Segment.locate o (.index i q)
  | .children q   => Segment.locate o (.children q)
  | .elements q   => Segment.locate o (.elements q)
  | .slice s      => Segment.locate o (.slice s)
  | .selector p t => Segment.locate o (.selector p t)

def Path.stages (o : Options) : List Segment → List Stage
  | [] => []
  | s :: rest => s.stage o :: Path.stages o rest

-- The fields of a construct. All results of their paths count, also in a read that stops after its
-- first one.
def Path.fieldValues (o : Options) (depth : Nat) (v : Json) :
    List (String × List Segment) → Except Error (List (String × Json))
  | [] => .ok []
  | (name, p) :: rest => do
    let found ← (Cursor.start o.maxDepth false (Path.stages o p) depth v).all
    let others ← Path.fieldValues o depth v rest
    return (name, fieldValue found) :: others

-- The value of a function. A value of the wrong kind gives null, and only the depth limit is an
-- error.
def Builtin.apply (o : Options) (depth : Nat) (v : Json) : Builtin → Except Error Json
  | .keys             => .ok v.keys
  | .length           => .ok v.length
  | .type             => .ok v.typeName
  | .has key          => .ok (.bool (v.has key))
  | .map m            => m.apply o depth v
  | .paths only       => v.paths only o.maxDepth depth
  | .split separator  => .ok (v.split separator)
  | .join separator   => .ok (v.join separator)
  | .lowercase        => .ok (v.mapText Text.lowercase)
  | .uppercase        => .ok (v.mapText Text.uppercase)
  | .trim             => .ok (v.mapText Text.trimmed)
  | .startsWith start => .ok (v.testText (Text.startsWith · start))
  | .endsWith ending  => .ok (v.testText (Text.endsWith · ending))
  | .contains needle  => .ok (v.contains needle)
  | .add              => .ok v.add
  | .min              => .ok v.min
  | .max              => .ok v.max
  | .sort             => .ok v.sort
  | .reverse          => .ok v.reverse
  | .unique           => .ok v.unique
  | .flatten levels   => v.flatten o.maxDepth levels depth

-- Maps the elements of an array. A path gives its first result, or null if it has none.
def Mapping.apply (o : Options) (depth : Nat) (v : Json) : Mapping → Except Error Json
  | .arithmetic op operand =>
    match v with
    | .arr items => .ok (.arr (items.map (Json.arithmetic op.compute operand)))
    | _ => .ok .null
  | .path p =>
    match v with
    | .arr items =>
      let stages := Path.stages o p
      (items.mapM fun item =>
        ((Cursor.start o.maxDepth true stages (deeper depth) item).first?).map
          (·.getD .null)).map .arr
    | _ => .ok .null

end

namespace Path

-- A read of a document, ready to give its first result.
def cursor (p : Path) (o : Options) (v : Json) : Cursor :=
  .start o.maxDepth o.onlyFirst (stages o p) 0 v

end Path

end JsonQuery
