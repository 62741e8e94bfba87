namespace JsonQuery.Balanced

def opens (c : Char) : Bool := c = '(' || c = '[' || c = '{'

def closes (c : Char) : Bool := c = ')' || c = ']' || c = '}'

def isQuote (c : Char) : Bool := c = '"' || c = '\''

-- Cuts a text in front of the first stop character that is neither quoted nor enclosed in brackets.
-- Brackets are only counted, so any closing one ends any opening one. `depth` brackets are open,
-- and `quote` is the mark of the string that is being read.
def cut? (stops : List Char) (depth : Nat) (quote : Option Char) (text : List Char) :
    Option (List Char × List Char) :=
  match quote, text with
  | _, [] => none
  | some q, '\\' :: c :: rest =>
    (cut? stops depth (some q) rest).map fun (a, b) => ('\\' :: c :: a, b)
  | some q, c :: rest =>
    (cut? stops depth (if c = q then none else some q) rest).map fun (a, b) => (c :: a, b)
  | none, c :: rest =>
    if isQuote c then
      (cut? stops depth (some c) rest).map fun (a, b) => (c :: a, b)
    else if opens c then
      (cut? stops (depth + 1) none rest).map fun (a, b) => (c :: a, b)
    else if closes c && depth != 0 then
      (cut? stops (depth - 1) none rest).map fun (a, b) => (c :: a, b)
    else if depth == 0 && stops.contains c then
      some ([], c :: rest)
    else
      (cut? stops depth none rest).map fun (a, b) => (c :: a, b)

theorem append_of_cut? {stops : List Char} {depth : Nat} {quote : Option Char}
    {text before after : List Char} (h : cut? stops depth quote text = some (before, after)) :
    before ++ after = text := by
  fun_induction cut? stops depth quote text generalizing before after <;>
    simp_all only [Option.map_eq_some_iff, Prod.mk.injEq, reduceCtorEq, Option.some.injEq] <;>
    grind

-- What is left starts with one of the stop characters.
theorem head_of_cut? {stops : List Char} {depth : Nat} {quote : Option Char}
    {text before after : List Char} (h : cut? stops depth quote text = some (before, after)) :
    ∃ c rest, after = c :: rest ∧ c ∈ stops := by
  fun_induction cut? stops depth quote text generalizing before after <;>
    simp_all only [Option.map_eq_some_iff, Prod.mk.injEq, reduceCtorEq, Option.some.injEq] <;>
    grind

end JsonQuery.Balanced
