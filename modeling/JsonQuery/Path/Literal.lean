import JsonQuery.Json.Printer
import JsonQuery.Json.Reader
import JsonQuery.Text.Blank

namespace JsonQuery.Literal

-- The content of a text that starts and ends with a single quote.
def singleQuoted? (text : List Char) : Option (List Char) :=
  match text with
  | '\'' :: rest => if rest.getLast? = some '\'' then some rest.dropLast else none
  | _ => none

-- Takes the backslash away from every single quote.
def unescape : List Char → List Char
  | [] => []
  | '\\' :: '\'' :: rest => '\'' :: unescape rest
  | c :: rest => c :: unescape rest

-- The value of a literal in an expression: a JSON text, a string between single quotes, or else the
-- text itself as a string.
def ofText (text : List Char) : Json :=
  let text := Text.trim text
  match Json.read? text with
  | some v => v
  | none =>
    match singleQuoted? text with
    | some content => .str (String.ofList (unescape content))
    | none         => .str (String.ofList text)

-- The value of a literal where a string is asked for. Blanks alone stand for themselves, and every
-- value but a string for its text.
def stringOfText (text : List Char) : String :=
  if (Text.trim text).isEmpty then String.ofList text
  else
    match ofText text with
    | .str s => s
    | v      => v.render

theorem ofText_of_read? {text : List Char} {v : Json} (h : Json.read? (Text.trim text) = some v) :
    ofText text = v := by
  simp [ofText, h]

end JsonQuery.Literal
