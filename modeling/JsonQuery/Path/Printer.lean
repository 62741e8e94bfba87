import JsonQuery.Path.Word

namespace JsonQuery

def Predicate.render : Predicate → String
  | compare key op literal =>
    "?(@." ++ key ++ " " ++ op.symbol ++ " " ++ literal.render ++ ")"
  | members pattern => "?" ++ (Json.obj pattern).render
  | any      => "*"
  | slice s  => String.ofList s.text
  | custom _ => "?(<custom>)"

-- The segment of a predicate that was not read from a text.
def Segment.ofPredicate (p : Predicate) : Segment := .selector p p.render

namespace Segment

-- Whether the segment is written between brackets. Such a segment needs no dot in front.
def isBracketed : Segment → Bool
  | key name _ => !isPlainKey name
  | index .. | elements _ | slice _ | selector .. => true
  | children optional => optional
  | call .. | literal _ | construct _ => false

def mark (optional : Bool) : String := if optional then "?" else ""

end Segment

mutual

def Segment.render : Segment → String
  | .key name optional =>
    (if isPlainKey name then name else "[" ++ Json.quoted name ++ "]") ++ Segment.mark optional
  | .index i optional => "[" ++ String.ofList (integerText i) ++ "]" ++ Segment.mark optional
  | .children optional => if optional then "[*]?" else "*"
  | .elements optional => "[]" ++ Segment.mark optional
  | .slice s => "[" ++ String.ofList s.text ++ "]"
  | .selector _ text => "[" ++ text ++ "]"
  | .call _ text => text
  | .literal v => v.render
  | .construct fields => "\x7b" ++ Path.renderFields fields ++ "\x7d"

-- The segments that follow the first one, with dots where they are needed.
def Path.renderRest : List Segment → String
  | [] => ""
  | s :: rest => (if s.isBracketed then "" else ".") ++ s.render ++ Path.renderRest rest

-- The text of a path. The path without segments is a lone dot.
def Path.render : List Segment → String
  | [] => "."
  | s :: rest => s.render ++ Path.renderRest rest

def Path.renderFields : List (String × List Segment) → String
  | [] => ""
  | (name, p) :: rest =>
    Json.quoted name ++ ": " ++ Path.render p ++ (if rest.isEmpty then "" else ", ") ++
      Path.renderFields rest

end

-- Custom predicates are functions, of which no two are taken to be the same.
def Predicate.same : Predicate → Predicate → Bool
  | compare key op a, compare key' op' b => key == key' && op == op' && a.same b
  | members a, members b => (Json.obj a).same (.obj b)
  | any, any => true
  | slice a, slice b => a == b
  | _, _ => false

mutual

-- Whether two segments were given in the same way: the same parts with the same texts. Operands are
-- compared as numbers.
def Segment.same : Segment → Segment → Bool
  | .key a o, .key b q => a == b && o == q
  | .index a o, .index b q => a == b && o == q
  | .children o, .children q => o == q
  | .elements o, .elements q => o == q
  | .slice a, .slice b => a == b
  | .selector p a, .selector q b => Predicate.same p q && a == b
  | .call f a, .call g b => f.same g && a == b
  | .literal a, .literal b => a.same b
  | .construct a, .construct b => Path.sameFields a b
  | _, _ => false

def Path.same : List Segment → List Segment → Bool
  | [], [] => true
  | a :: p, b :: q => a.same b && Path.same p q
  | _, _ => false

def Path.sameFields : List (String × List Segment) → List (String × List Segment) → Bool
  | [], [] => true
  | (a, p) :: rest, (b, q) :: more => a == b && Path.same p q && Path.sameFields rest more
  | _, _ => false

def Builtin.same : Builtin → Builtin → Bool
  | .has a, .has b => a.same b
  | .map a, .map b => a.same b
  | .paths a, .paths b => a == b
  | .split a, .split b => a == b
  | .join a, .join b => a == b
  | .startsWith a, .startsWith b => a == b
  | .endsWith a, .endsWith b => a == b
  | .contains a, .contains b => a.same b
  | .flatten a, .flatten b => a == b
  | f, g => f.name == g.name

def Mapping.same : Mapping → Mapping → Bool
  | .path p, .path q => Path.same p q
  | .arithmetic op a, .arithmetic op' b => op == op' && a.equals b
  | _, _ => false

end

end JsonQuery
