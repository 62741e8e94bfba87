import JsonQuery.Builtin.Text
import JsonQuery.Json.Order

namespace JsonQuery

-- What a search compares values with. A regular expression is known by the strings that it matches.
inductive Matcher where
  | exact (pattern : Json)
  | contains (pattern : Json)
  | regex (test : String → Bool)

namespace Matcher

-- Equality of a value with a pattern. Without regard to case, two strings are compared in lower
-- case, but not the strings inside of containers.
def equal (caseSensitive : Bool) (v pattern : Json) : Bool :=
  match v, pattern with
  | .str a, .str b =>
    if caseSensitive then a == b else Text.lowercase a == Text.lowercase b
  | _, _ => v.equal pattern

def accepts (m : Matcher) (caseSensitive : Bool) (v : Json) : Bool :=
  match m with
  | exact pattern => equal caseSensitive v pattern
  | contains pattern =>
    match v, pattern with
    | .str a, .str b =>
      if caseSensitive then Text.contains a b
      else Text.contains (Text.lowercase a) (Text.lowercase b)
    | .arr items, pattern => items.any fun x => equal caseSensitive x pattern
    | _, _ => false
  | regex test =>
    match v with
    | .str s => test s
    | _      => false

end Matcher

end JsonQuery
