import JsonQuery.Error

namespace JsonQuery

-- What a write makes of the value at a location.
inductive Operation where
  | set
  -- Adds the new value to the end of an array.
  | append
  -- Adds the elements of the new value, an array, to the end of an array.
  | extend
  deriving DecidableEq

namespace Operation

def word : Operation → String
  | set    => "set"
  | append => "append"
  | extend => "extend"

def all : List Operation := [set, append, extend]

def ofWord? (word : String) : Option Operation := all.find? (·.word == word)

theorem ofWord?_word (op : Operation) : ofWord? op.word = some op := by
  cases op <;> decide

-- The array that is added to: a missing value and null count as the empty one, and any other value
-- as its only element.
def base : Option Json → List Json
  | some (.arr items)   => items
  | some .null | none   => []
  | some v              => [v]

def apply (op : Operation) (old : Option Json) (new : Json) : Except Error Json :=
  match op with
  | set    => .ok new
  | append => .ok (.arr (base old ++ [new]))
  | extend =>
    match new with
    | .arr items => .ok (.arr (base old ++ items))
    | v          => .error (.notExtendable v.kind)

end Operation

end JsonQuery
