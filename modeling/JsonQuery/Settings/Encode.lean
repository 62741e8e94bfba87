import JsonQuery.Edit.Operation
import JsonQuery.Json.Location
import JsonQuery.Options
import JsonQuery.Path.Segment
import JsonQuery.Search.Options

namespace JsonQuery

-- The variants of a choice are written by their names, and those that hold a value as an object
-- with the name as its only key.
def Separator.toJson : Separator → Json
  | dot      => .str "Dot"
  | slash    => .str "Slash"
  | custom c => .obj [("Custom", .str c.toString)]

def Options.toJson (o : Options) : Json :=
  .obj [
    ("max_depth", .ofNat o.maxDepth),
    ("max_padding", .ofNat o.maxPadding),
    ("strict", .bool o.strict),
    ("only_first", .bool o.onlyFirst),
    ("create_missing", .bool o.createMissing),
    ("tolerant_delete", .bool o.tolerantDelete),
    ("separator", o.separator.toJson)]

def SearchOptions.toJson (o : SearchOptions) : Json :=
  .obj [
    ("mode", .str o.mode.word),
    ("case_sensitive", .bool o.caseSensitive),
    ("search_keys", .bool o.keys),
    ("search_values", .bool o.values),
    ("max_depth", .ofNat o.maxDepth)]

def Operation.toJson (op : Operation) : Json := .str op.word

def Comparison.variant : Comparison → String
  | eq => "Eq"
  | ne => "Ne"
  | gt => "Gt"
  | lt => "Lt"
  | ge => "Ge"
  | le => "Le"

def Comparison.toJson (c : Comparison) : Json := .str c.variant

def Slice.toJson (s : Slice) : Json :=
  let bound (n : Option Int) := n.elim Json.null Json.int
  .obj [("start", bound s.start), ("stop", bound s.stop), ("step", bound s.step)]

-- A step with the name of its kind.
def Step.tagged : Step → Json
  | key name => .obj [("Key", .str name)]
  | index i  => .obj [("Index", .ofNat i)]

end JsonQuery
