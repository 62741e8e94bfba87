import JsonQuery.Error
import JsonQuery.Regex.Reader
import JsonQuery.Regex.Track
import JsonQuery.Search.Matcher
import JsonQuery.Search.Options

namespace JsonQuery.Matcher

-- What a search with a pattern compares values with. Only the regular expressions have to be
-- strings of a certain form.
def ofPattern (o : SearchOptions) (pattern : Json) : Except Error Matcher :=
  match o.mode with
  | .exact    => .ok (.exact pattern)
  | .contains => .ok (.contains pattern)
  | .regex =>
    match pattern with
    | .str s =>
      match Regex.read? (!o.caseSensitive) s.toList with
      | some r => .ok (.regex r.test)
      | none   => .error .patternInvalid
    | v => .error (.patternNotText v.kind)

end JsonQuery.Matcher
