import JsonQuery.Path.Balanced
import JsonQuery.Path.Literal
import JsonQuery.Path.Outline
import JsonQuery.Path.Quoted
import JsonQuery.Path.SyntaxError
import JsonQuery.Path.Word

namespace JsonQuery.Grammar

-- What a rule has read and the rest of the text, or nothing if the rule does not apply. A rule that
-- fails with an error has applied, and no other one is tried.
abbrev Found (α : Type) := Option (α × List Char)

def skipSpace (text : List Char) : List Char := text.dropWhile Lexeme.isSpace

-- The part of `text` in front of `rest`.
def consumed (text rest : List Char) : List Char := text.take (text.length - rest.length)

def question : List Char → Bool × List Char
  | '?' :: rest => (true, rest)
  | rest        => (false, rest)

def word? (text : List Char) : Option (List Char × List Char) :=
  let word := text.takeWhile isWordChar
  if word.isEmpty then none else some (word, text.dropWhile isWordChar)

-- The name of a member: a quoted string or a word.
def name? (text : List Char) : Option (String × List Char) :=
  match Quoted.read? text with
  | some found => some found
  | none       => (word? text).map fun (w, rest) => (String.ofList w, rest)

def integer? (text : List Char) : Option (Int × List Char) :=
  let (sign, digits) :=
    match text with
    | '-' :: rest => (['-'], rest)
    | rest        => ([], rest)
  (signed64? (sign ++ digits.takeWhile Char.isDigit)).map (·, digits.dropWhile Char.isDigit)

def bound (text : List Char) : Option Int × List Char :=
  match integer? text with
  | some (i, rest) => (some i, rest)
  | none           => (none, text)

-- Two optional bounds with a colon between them.
def slice (text : List Char) : Except SyntaxError (Found Slice) :=
  let (start, rest) := bound text
  match skipSpace rest with
  | ':' :: rest =>
    let (stop, rest) := bound (skipSpace rest)
    match skipSpace rest with
    | ':' :: rest => .error (.secondColon (':' :: rest))
    | rest        => .ok (some (⟨start, stop, none⟩, rest))
  | _ => .ok none

def comparison? : List Char → Option (Comparison × List Char)
  | '=' :: '=' :: rest => some (.eq, rest)
  | '!' :: '=' :: rest => some (.ne, rest)
  | '>' :: '=' :: rest => some (.ge, rest)
  | '<' :: '=' :: rest => some (.le, rest)
  | '>' :: rest => some (.gt, rest)
  | '<' :: rest => some (.lt, rest)
  | _ => none

-- A literal inside of parentheses: a quoted string, or everything up to the next closing one.
def operand? (text : List Char) : Option (List Char × List Char) :=
  match Quoted.read? text with
  | some (_, rest) => some (consumed text rest, rest)
  | none =>
    let operand := text.takeWhile (· != ')')
    if operand.isEmpty then none
    else some (Text.trimEnd operand, text.dropWhile (· != ')'))

def expect? (c : Char) : List Char → Option (List Char)
  | d :: rest => if d = c then some rest else none
  | []        => none

-- A comparison between parentheses.
def compare? (text : List Char) : Option (Predicate × List Char) := do
  let rest ← expect? '(' text
  let rest ← expect? '@' (skipSpace rest)
  let rest ← expect? '.' rest
  let (key, rest) ← name? rest
  let (op, rest) ← comparison? (skipSpace rest)
  let (operand, rest) ← operand? (skipSpace rest)
  let rest ← expect? ')' (skipSpace rest)
  return (.compare key op (Literal.ofText operand), rest)

-- What follows the question mark of a selector.
def predicate (text : List Char) : Except SyntaxError (Predicate × List Char) :=
  match compare? text with
  | some found => .ok found
  | none =>
    match text with
    | '{' :: rest =>
      match Balanced.cut? ['}'] 0 none rest with
      | none => .error (.unclosedPattern text)
      | some (inner, after) =>
        match Json.read? ('{' :: inner ++ ['}']) with
        | some (.obj members) => .ok (.members members, after.drop 1)
        | _ => .error (.patternNotObject text)
    | _ => .error (.unknownSelector text)

-- What stands between two brackets.
def bracketBody (text : List Char) : Except SyntaxError (Found Segment) :=
  match text with
  | '?' :: rest => do
    let (p, after) ← predicate rest
    return some (.selector p (String.ofList (consumed text after)), after)
  | '*' :: rest => .ok (some (.children false, rest))
  | _ =>
    match Quoted.read? text with
    | some (name, rest) => .ok (some (.key name false, rest))
    | none => do
      match ← slice text with
      | some (s, rest) => return some (.slice s, rest)
      | none => return (integer? text).map fun (i, rest) => (.index i false, rest)

def withMark (s : Segment) (text : List Char) : Segment × List Char :=
  match question text with
  | (true, rest)  => (s.makeOptional, rest)
  | (false, rest) => (s, rest)

-- The closing bracket of a segment and its mark.
def closeBracket (s : Segment) (text : List Char) : Except SyntaxError (Found Segment) :=
  match skipSpace text with
  | ']' :: rest => .ok (some (withMark s rest))
  | rest        => .error (.unclosedBracket rest)

-- A segment between brackets. Nothing between them means all elements.
def bracket (text : List Char) : Except SyntaxError (Found Segment) :=
  match text with
  | '[' :: rest => do
    match ← bracketBody (skipSpace rest) with
    | some (s, rest) => closeBracket s rest
    | none           => closeBracket (.elements false) (skipSpace rest)
  | _ => .ok none

-- A quoted key, or a word, which is a function, an index or a key.
def head (text : List Char) : Except SyntaxError (Found Outline) :=
  match Quoted.read? text with
  | some (name, rest) =>
    let (s, rest) := withMark (.key name false) rest
    .ok (some (.ready s, rest))
  | none =>
    match word? text with
    | none => .ok none
    | some (word, rest) =>
      if Builtin.isName (String.ofList word) then
        match rest with
        | '(' :: rest =>
          match Balanced.cut? [')'] 0 none rest with
          | some (argument, after) => .ok (some (.call word (some argument), after.drop 1))
          | none                   => .error (.unclosedCall rest)
        | rest => .ok (some (.call word none, rest))
      else
        let (optional, rest) := question rest
        .ok (some (.ready (.ofWord word optional), rest))

-- The path of a field, up to the next comma or closing brace. An empty one is not read.
def fieldValue? (text : List Char) : Option (List Char × List Char) :=
  let (value, rest) := (Balanced.cut? [',', '}'] 0 none text).getD (text, [])
  let value := Text.trimEnd value
  if value.isEmpty then none else some (value, rest)

-- A field of a construct: a name, and perhaps a colon and a path.
def field? (text : List Char) : Option ((String × Option (List Char)) × List Char) :=
  (name? text).map fun (name, rest) =>
    let rest := skipSpace rest
    match rest with
    | ':' :: after =>
      match fieldValue? (skipSpace after) with
      | some (value, after) => ((name, some value), after)
      | none                => ((name, none), rest)
    | _ => ((name, none), rest)

def comma? (text : List Char) : Option (List Char) := (expect? ',' (skipSpace text)).map skipSpace

end JsonQuery.Grammar
