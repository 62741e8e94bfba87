import JsonQuery.Json.Basic
import JsonQuery.Json.Lexeme

namespace JsonQuery

-- A document as it is written: objects keep members with repeated keys, and what a lexeme has no
-- value for is still in its place.
inductive Draft where
  | null
  | bool (b : Bool)
  | num (n : Option Number)
  | str (s : Option String)
  | arr (items : List Draft)
  | obj (members : List (Option String × Draft))
  deriving Inhabited

namespace Draft

-- A container that is not closed yet, with what it holds so far, the last one first. An object
-- waits for the value of a key.
inductive Open where
  | array (items : List Draft)
  | object (members : List (Option String × Draft)) (key : Option String)

-- What is expected next, inside of the open containers, the innermost one first.
inductive State where
  | value (stack : List Open)
  | firstItem (stack : List Open)
  | firstKey (stack : List Open)
  | key (members : List (Option String × Draft)) (stack : List Open)
  | colon (members : List (Option String × Draft)) (key : Option String) (stack : List Open)
  | afterItem (items : List Draft) (stack : List Open)
  | afterMember (members : List (Option String × Draft)) (stack : List Open)
  | done (v : Draft)

namespace State

-- A complete value goes into the innermost open container.
def place (v : Draft) : List Open → State
  | []                         => done v
  | .array items :: stack      => afterItem (v :: items) stack
  | .object members k :: stack => afterMember ((k, v) :: members) stack

-- The lexeme starts a value. At most `nesting` containers may be open at once.
def start (nesting : Nat) (stack : List Open) : Lexeme → Option State
  | .null       => some (place .null stack)
  | .bool b     => some (place (.bool b) stack)
  | .num n      => some (place (.num n) stack)
  | .str s      => some (place (.str s) stack)
  | .openArray  => if stack.length < nesting then some (firstItem stack) else none
  | .openObject => if stack.length < nesting then some (firstKey stack) else none
  | _           => none

def next (nesting : Nat) : State → Lexeme → Option State
  | value stack, l => start nesting stack l
  | firstItem stack, .closeArray => some (place (.arr []) stack)
  | firstItem stack, l => start nesting (.array [] :: stack) l
  | firstKey stack, .closeObject => some (place (.obj []) stack)
  | firstKey stack, .str k => some (colon [] k stack)
  | key members stack, .str k => some (colon members k stack)
  | colon members k stack, .colon => some (value (.object members k :: stack))
  | afterItem items stack, .comma => some (value (.array items :: stack))
  | afterItem items stack, .closeArray => some (place (.arr items.reverse) stack)
  | afterMember members stack, .comma => some (key members stack)
  | afterMember members stack, .closeObject => some (place (.obj members.reverse) stack)
  | _, _ => none

def run (nesting : Nat) (s : State) : List Lexeme → Option Draft
  | [] =>
    match s with
    | done v => some v
    | _      => none
  | l :: rest => (next nesting s l).bind (run nesting · rest)

end State

-- Reads a text that holds one value and nothing else.
def read? (nesting : Nat) (text : List Char) : Option Draft :=
  (Lexeme.readAll? text).bind (State.run nesting (.value []))

mutual

-- The document that is meant: a repeated key keeps its first place and its last value. A draft with
-- a number or a string that has no value means nothing.
def toJson? : Draft → Option Json
  | null   => some .null
  | bool b => some (.bool b)
  | num n  => n.map .num
  | str s  => s.map .str
  | arr items   => (itemsToJson? items).map .arr
  | obj members => (membersToJson? members).map fun ms => .obj (Members.ofList ms)

def itemsToJson? : List Draft → Option (List Json)
  | [] => some []
  | v :: rest =>
    match v.toJson?, itemsToJson? rest with
    | some v, some rest => some (v :: rest)
    | _, _ => none

def membersToJson? : List (Option String × Draft) → Option (List (String × Json))
  | [] => some []
  | (k, v) :: rest =>
    match k, v.toJson?, membersToJson? rest with
    | some k, some v, some rest => some ((k, v) :: rest)
    | _, _, _ => none

end

end Draft

-- How many containers of a document may lie inside of each other.
def Json.maxNesting : Nat := 127

-- Reads the text of a document.
def Json.read? (text : List Char) : Option Json :=
  (Draft.read? Json.maxNesting text).bind Draft.toJson?

end JsonQuery
