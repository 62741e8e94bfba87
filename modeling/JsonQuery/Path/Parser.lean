import JsonQuery.Path.Argument

namespace JsonQuery.Path

-- Reads an expression. A blank one and a lone dot are the path without segments. The paths inside
-- of arguments and constructs are read from left to right after the expression around them.
def parse (text : List Char) : Except Error Path :=
  let text' := Text.trim text
  if text' = [] ∨ text' = ['.'] then .ok []
  else
    match h : Grammar.outline text' with
    | .error e => .error (.malformed text' e)
    | .ok outlines =>
      outlines.attach.mapM fun ⟨o, ho⟩ => o.resolve fun inner hi =>
        have : inner.length < text.length :=
          Nat.lt_of_le_of_lt hi
            (Nat.lt_of_lt_of_le (Grammar.size_of_outline h o ho) (Text.length_trim_le text))
        parse inner
termination_by text.length

def ofString (expression : String) : Except Error Path := parse expression.toList

end JsonQuery.Path
