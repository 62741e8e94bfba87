import JsonQuery.Error
import JsonQuery.Number.Reader
import JsonQuery.Path.Grammar

namespace JsonQuery

namespace Mapping

-- The operand after one of the two signs.
def operand? (sign : Char) (text : List Char) : Option Binary64 :=
  (Grammar.expect? sign text).bind fun rest => Binary64.read? (Text.trim rest)

-- A dot, a sign and a number: every element is multiplied with the number or added to it.
def arithmetic? (text : List Char) : Option Mapping := do
  let rest := Text.trimStart (← Grammar.expect? '.' text)
  match operand? '*' rest with
  | some x => return .arithmetic .mul x
  | none   => return .arithmetic .add (← operand? '+' rest)

end Mapping

namespace Descendants

def ofWord? (word : String) : Option Descendants :=
  match word with
  | "objects" => some objects
  | "arrays"  => some arrays
  | "scalars" => some scalars
  | _         => none

end Descendants

namespace Builtin

-- The functions without an argument by all of their names.
def plain : List (String × Builtin) := [
  ("keys", keys), ("length", length), ("type", type), ("lowercase", lowercase),
  ("lower", lowercase), ("ascii_downcase", lowercase), ("uppercase", uppercase),
  ("upper", uppercase), ("ascii_upcase", uppercase), ("trim", trim), ("add", add), ("min", min),
  ("max", max), ("sort", sort), ("reverse", reverse), ("unique", unique)]

def isBlankText (text : List Char) : Bool := (Text.trim text).isEmpty

-- An argument that has to be there, be it blank.
def required (name : String) (argument : Option (List Char)) : Except Error (List Char) :=
  match argument with
  | some (c :: rest) => .ok (c :: rest)
  | _                => .error (.argumentMissing name)

-- Blank arguments count as none where an argument is optional.
def present? (argument : Option (List Char)) : Option (List Char) :=
  argument.filter fun text => !isBlankText text

def paths? (argument : Option (List Char)) : Except Error Builtin :=
  match present? argument with
  | none => .ok (paths none)
  | some text =>
    let word := String.ofList (Text.trim text)
    match Descendants.ofWord? word with
    | some d => .ok (paths (some d))
    | none   => .error (.unknownDescendants word)

def flatten? (argument : Option (List Char)) : Except Error Builtin :=
  match present? argument with
  | none => .ok (flatten none)
  | some text =>
    match unsigned64? (Text.trim text) with
    | some n => .ok (flatten (some n))
    | none   => .error (.unknownDepth (String.ofList (Text.trim text)))

-- The function that a name and the text of an argument stand for. `parse` reads the path of a
-- mapping, which is no longer than the argument.
def ofCall (name : String) (argument : Option (List Char))
    (parse : (text : List Char) → text.length ≤ (argument.getD []).length → Except Error Path) :
    Except Error Builtin :=
  match Members.get? plain name with
  | some f =>
    match present? argument with
    | none      => .ok f
    | some text => .error (.argumentUnexpected name (String.ofList text))
  | none =>
    match name with
    | "has"        => (required name argument).map fun text => has (Literal.ofText text)
    | "contains"   => (required name argument).map fun text => contains (Literal.ofText text)
    | "split"      => (required name argument).map fun text => split (Literal.stringOfText text)
    | "startswith" =>
      (required name argument).map fun text => startsWith (Literal.stringOfText text)
    | "endswith"   =>
      (required name argument).map fun text => endsWith (Literal.stringOfText text)
    | "join"       => .ok (join (argument.elim "" Literal.stringOfText))
    | "paths"      => paths? argument
    | "flatten"    => flatten? argument
    | "map" =>
      match argument with
      | some (c :: rest) =>
        -- A mapping is arithmetic with a number, or else a path.
        match Mapping.arithmetic? (Text.trim (c :: rest)) with
        | some m => .ok (map m)
        | none   =>
          (parse (Text.trim (c :: rest)) (Text.length_trim_le _)).map fun p => map (.path p)
      | _ => .error (.argumentMissing name)
    | _ => .error (.unknownFunction name)

end Builtin

namespace Outline

-- The path of a field is read in this order: a scalar in JSON, a string between single quotes, a
-- path, and then any other JSON text.
def fieldPath (text : List Char) (path : Except Error Path) : Except Error Path :=
  let v := Json.read? text
  match v.filter (!·.isContainer) with
  | some v => .ok [.literal v]
  | none =>
    if (Literal.singleQuoted? text).isSome then .ok [.literal (Literal.ofText text)]
    else
      match path, v with
      | .ok p,    _      => .ok p
      | .error _, some v => .ok [.literal v]
      | .error e, none   => .error e

def callText (name : List Char) (argument : Option (List Char)) : String :=
  String.ofList (name ++ argument.elim [] fun text => '(' :: text ++ [')'])

-- The fields of a construct with their paths. A field without a path takes the member of its name.
def resolveFields {n : Nat} (parse : (text : List Char) → text.length ≤ n → Except Error Path) :
    (fields : List (String × Option (List Char))) →
    (∀ f ∈ fields, (f.2.getD []).length ≤ n) → Except Error (List (String × Path))
  | [], _ => .ok []
  | (name, none) :: rest, h => do
    let rest ← resolveFields parse rest fun f hf => h f (List.mem_cons_of_mem _ hf)
    return (name, [.key name false]) :: rest
  | (name, some text) :: rest, h => do
    let short : (Text.trim text).length ≤ n :=
      Nat.le_trans (Text.length_trim_le text) (h (name, some text) (List.mem_cons_self ..))
    let p ← fieldPath (Text.trim text) (parse (Text.trim text) short)
    let rest ← resolveFields parse rest fun f hf => h f (List.mem_cons_of_mem _ hf)
    return (name, p) :: rest

theorem length_le_size {fields : List (String × Option (List Char))}
    {f : String × Option (List Char)} (h : f ∈ fields) :
    (f.2.getD []).length ≤ (construct fields).size := by
  simp only [size]
  induction fields with
  | nil => cases h
  | cons g rest ih =>
    simp only [List.map_cons, List.foldr_cons]
    rcases List.mem_cons.mp h with rfl | h
    · exact Nat.le_max_left ..
    · exact Nat.le_trans (ih h) (Nat.le_max_right ..)

-- The segment that an outline stands for. `parse` reads the paths inside, which are no longer than
-- the longest text of the outline.
def resolve (o : Outline) (parse : (text : List Char) → text.length ≤ o.size → Except Error Path) :
    Except Error Segment :=
  match o with
  | ready s => .ok s
  | call name argument =>
    (Builtin.ofCall (String.ofList name) argument parse).map (.call · (callText name argument))
  | construct fields => (resolveFields parse fields fun _ => length_le_size).map .construct

end Outline

end JsonQuery
