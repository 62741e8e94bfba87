namespace JsonQuery

-- How a search compares values with its pattern.
inductive SearchMode where
  -- The value equals the pattern.
  | exact
  -- The pattern is a part of a string or an element of an array.
  | contains
  -- The pattern is a regular expression that a string matches somewhere.
  | regex
  deriving DecidableEq

namespace SearchMode

def word : SearchMode → String
  | exact    => "exact"
  | contains => "contains"
  | regex    => "regex"

def all : List SearchMode := [exact, contains, regex]

def ofWord? (word : String) : Option SearchMode := all.find? (·.word == word)

theorem ofWord?_word (m : SearchMode) : ofWord? m.word = some m := by
  cases m <;> decide

end SearchMode

structure SearchOptions where
  mode          : SearchMode
  caseSensitive : Bool
  -- Whether the keys of objects are searched.
  keys          : Bool
  -- Whether the values are searched.
  values        : Bool
  maxDepth      : Nat
  deriving DecidableEq

namespace SearchOptions

def default : SearchOptions where
  mode          := .exact
  caseSensitive := true
  keys          := true
  values        := true
  maxDepth      := 100

instance : Inhabited SearchOptions := ⟨default⟩

end SearchOptions

end JsonQuery
