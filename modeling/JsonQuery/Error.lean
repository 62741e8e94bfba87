import JsonQuery.Json.Location
import JsonQuery.Path.SyntaxError

namespace JsonQuery

-- The containers that a segment leads through.
inductive Container where
  | object
  | array
  | either
  deriving DecidableEq

def Container.name : Container → String
  | object => "object"
  | array  => "array"
  | either => "array or object"

-- Why a request fails.
inductive Error where
  -- The text is no path.
  | malformed (text : List Char) (cause : SyntaxError)
  -- The value at the location is not of the kind that the next segment leads through.
  | mismatch (place : Location) (expected : Container) (found : Kind)
  | missingKey (place : Location)
  -- The array at the location has no such index.
  | missingIndex (place : Location) (index : Int)
  -- A path that counts from the end of an array cannot be created.
  | negativeIndex (place : Location) (index : Int)
  -- A slice leads out of its array.
  | outOfBounds (index length : Nat)
  -- Creating the location would take more nulls than the limit allows.
  | tooFar (place : Location) (limit : Nat)
  | notAddressable (segment : String)
  | notCreatable (segment : String)
  | rootRemoved
  | notExtendable (found : Kind)
  | unknownOperation (word : String)
  | unknownMode (word : String)
  | unknownComparison (word : String)
  | argumentMissing (function : String)
  | argumentUnexpected (function argument : String)
  | unknownDescendants (word : String)
  | unknownDepth (word : String)
  | unknownFunction (word : String)
  -- The pattern of a search by regular expressions is no string.
  | patternNotText (found : Kind)
  -- It is no regular expression.
  | patternInvalid
  -- A flat map has the empty key and other keys.
  | rootNotAlone
  -- A flattened key continues another one that has a value.
  | valueAndPrefix (key : String)
  -- Rebuilding an array would take more nulls than the limit allows.
  | tooSparse (key : String) (missing limit : Nat)
  -- A rebuilt array would have more elements than a signed 64 bit integer counts.
  | tooLong (length : Nat)
  | tooDeep (limit : Nat)
  -- An edit leads to a location that does not exist.
  | unappliable (number : Nat) (place : Location)
  deriving DecidableEq

namespace Error

-- The classes of errors that a caller tells apart.
inductive Class where
  | expression
  | type
  | key
  | index
  | value
  | depth
  | edit
  deriving DecidableEq

def kind : Error → Class
  | malformed .. => .expression
  | mismatch .. => .type
  | missingKey _ => .key
  | missingIndex .. | negativeIndex .. | outOfBounds .. | tooFar .. | tooLong _ => .index
  | tooDeep _ => .depth
  | unappliable .. => .edit
  | _ => .value

def indexText (l : Location) (i : Int) : String :=
  l.pointer ++ "/" ++ toString i

-- What is wrong, without the words that name the class.
def detail : Error → String
  | malformed text cause => cause.report text
  | mismatch l expected found =>
    "'" ++ l.pointer ++ "': expected " ++ expected.name ++ ", found " ++ found.name
  | missingKey l => l.pointer
  | missingIndex l i => indexText l i
  | negativeIndex l i => indexText l i ++ ": negative indices cannot be created"
  | outOfBounds i length =>
    "index out of bounds: the len is " ++ length.repr ++ " but the index is " ++ i.repr
  | tooFar l limit => l.pointer ++ ": more than " ++ limit.repr ++ " missing elements"
  | notAddressable segment =>
    "'" ++ segment ++ "' does not address a location and cannot be modified"
  | notCreatable segment => "'" ++ segment ++ "' cannot be created"
  | rootRemoved => "cannot delete the root"
  | notExtendable found => "extend requires an array, got " ++ found.name
  | unknownOperation word => "unsupported operation '" ++ word ++ "'"
  | unknownMode word => "unsupported search mode '" ++ word ++ "'"
  | unknownComparison word => "unsupported comparison operator '" ++ word ++ "'"
  | argumentMissing function => "function '" ++ function ++ "' requires an argument"
  | argumentUnexpected function argument =>
    "function '" ++ function ++ "' takes no argument, got '" ++ argument ++ "'"
  | unknownDescendants word =>
    "unsupported paths filter '" ++ word ++ "', expected objects, arrays or scalars"
  | unknownDepth word => "flatten depth must be a non-negative integer, got '" ++ word ++ "'"
  | unknownFunction word => "unknown function '" ++ word ++ "'"
  | patternNotText found => "regex search needs a string pattern, got " ++ found.name
  | patternInvalid => "regex parse error"
  | rootNotAlone => "the empty key holds the root and cannot be combined with other keys"
  | valueAndPrefix key => "'" ++ key ++ "' is both a value and a prefix of other keys"
  | tooSparse key missing limit =>
    "'" ++ key ++ "' would need " ++ missing.repr ++ " null elements, more than the limit of " ++
      limit.repr
  | tooLong length => "capacity overflow: the len is " ++ length.repr
  | tooDeep limit => limit.repr
  | unappliable number l =>
    "operation '/" ++ number.repr ++ "' failed at path '" ++ l.pointer ++ "': path is invalid"

def message (e : Error) : String :=
  match e.kind with
  | .expression => "Parsing error: " ++ e.detail
  | .type       => "Type mismatch at " ++ e.detail
  | .key        => "Key not found: '" ++ e.detail ++ "'"
  | .index      => "Index out of range: '" ++ e.detail ++ "'"
  | .value      => "Invalid value: " ++ e.detail
  | .depth      => "Maximum depth of " ++ e.detail ++ " exceeded"
  | .edit       => "Patch error: " ++ e.detail

end Error

end JsonQuery
