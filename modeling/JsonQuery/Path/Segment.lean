import JsonQuery.Json.Order
import JsonQuery.Path.Slice

namespace JsonQuery

-- How a comparison selector compares.
inductive Comparison where
  | eq
  | ne
  | gt
  | lt
  | ge
  | le
  deriving DecidableEq

namespace Comparison

def symbol : Comparison → String
  | eq => "=="
  | ne => "!="
  | gt => ">"
  | lt => "<"
  | ge => ">="
  | le => "<="

def all : List Comparison := [eq, ne, gt, lt, ge, le]

def ofSymbol? (symbol : String) : Option Comparison := all.find? (·.symbol == symbol)

def holds : Comparison → Ordering → Bool
  | eq, o => o.isEq
  | ne, o => o.isNe
  | gt, o => o.isGT
  | lt, o => o.isLT
  | ge, o => o.isGE
  | le, o => o.isLE

theorem ofSymbol?_symbol (c : Comparison) : ofSymbol? c.symbol = some c := by
  cases c <;> decide

end Comparison

-- Where a selector finds the value that it tests: under a key, or at an index of an array of `len`
-- elements.
inductive Place where
  | name (key : String)
  | index (i len : Nat)
  deriving DecidableEq

-- What a selector asks of the children of a value.
inductive Predicate where
  -- A member has a value that compares to the literal in this way.
  | compare (key : String) (op : Comparison) (literal : Json)
  -- All these members are there with these values.
  | members (pattern : List (String × Json))
  | any
  -- The child stands at one of these places of an array.
  | slice (s : Slice)
  | custom (test : Place → Json → Bool)

inductive Arithmetic where
  | mul
  | add
  deriving DecidableEq

-- The descendants that a list of paths can be restricted to.
inductive Descendants where
  | objects
  | arrays
  | scalars
  deriving DecidableEq

mutual

-- One part of a path. Those that can be optional carry a mark that says whether they are. What is
-- written in a richer notation keeps its text.
inductive Segment where
  | key (name : String) (optional : Bool)
  -- A negative index counts from the end.
  | index (i : Int) (optional : Bool)
  -- All children of an object or an array.
  | children (optional : Bool)
  -- All elements of an array.
  | elements (optional : Bool)
  | slice (s : Slice)
  | selector (p : Predicate) (text : String)
  | call (f : Builtin) (text : String)
  | literal (v : Json)
  -- A new object. Every field has a path that tells its value.
  | construct (fields : List (String × List Segment))

-- A built-in function with its argument.
inductive Builtin where
  | keys
  | length
  | type
  | has (key : Json)
  | map (m : Mapping)
  | paths (only : Option Descendants)
  | split (separator : String)
  | join (separator : String)
  | lowercase
  | uppercase
  | trim
  | startsWith (start : String)
  | endsWith (ending : String)
  | contains (needle : Json)
  | add
  | min
  | max
  | sort
  | reverse
  | unique
  | flatten (depth : Option Nat)

-- What happens to every element of a mapped array.
inductive Mapping where
  | path (p : List Segment)
  | arithmetic (op : Arithmetic) (operand : Binary64)

end

abbrev Path := List Segment

namespace Builtin

-- The name under which a function is known, whichever of its names was written.
def name : Builtin → String
  | keys         => "keys"
  | length       => "length"
  | type         => "type"
  | has _        => "has"
  | map _        => "map"
  | paths _      => "paths"
  | split _      => "split"
  | join _       => "join"
  | lowercase    => "lowercase"
  | uppercase    => "uppercase"
  | trim         => "trim"
  | startsWith _ => "startswith"
  | endsWith _   => "endswith"
  | contains _   => "contains"
  | add          => "add"
  | min          => "min"
  | max          => "max"
  | sort         => "sort"
  | reverse      => "reverse"
  | unique       => "unique"
  | flatten _    => "flatten"

-- All words that an expression reads as a function.
def names : List String := [
  "keys", "length", "type", "has", "map", "paths", "split", "join", "lowercase", "lower",
  "ascii_downcase", "uppercase", "upper", "ascii_upcase", "trim", "startswith", "endswith",
  "contains", "add", "min", "max", "sort", "reverse", "unique", "flatten"]

def isName (word : String) : Bool := names.contains word

end Builtin

namespace Segment

-- Whether the segment names one location.
def isConcrete : Segment → Bool
  | key .. | index .. => true
  | _ => false

def isSelector : Segment → Bool
  | selector .. => true
  | _ => false

def isOptional : Segment → Bool
  | key _ o | index _ o | children o | elements o => o
  | _ => false

-- Whether the segment leads to locations of the document, and not to computed values.
def isAddressable : Segment → Bool
  | call .. | literal _ | construct _ => false
  | _ => true

-- The same segment with an optional mark, if it can have one.
def makeOptional : Segment → Segment
  | key name _ => key name true
  | index i _  => index i true
  | children _ => children true
  | elements _ => elements true
  | s          => s

-- The call of a function without its argument in the text.
def ofBuiltin (f : Builtin) : Segment := call f f.name

theorem isAddressable_of_isConcrete {s : Segment} (h : s.isConcrete = true) :
    s.isAddressable = true := by
  cases s <;> simp_all [isConcrete, isAddressable]

end Segment

end JsonQuery
