import JsonQuery.Json.Basic

namespace JsonQuery.Json

-- A computed number, or null if it is not finite.
def ofBinary64 (x : Binary64) : Json :=
  match Number.ofBinary64? x with
  | some n => num n
  | none   => null

def toNumber? : Json → Option Number
  | num n => some n
  | _     => none

-- The exact sum of 64 bit integers, unless it leaves their range on the way.
def integerSum? (sum : Int) : List Number → Option Int
  | [] => some sum
  | n :: rest =>
    match n.toInt64? with
    | none => none
    | some i =>
      if -0x8000000000000000 ≤ sum + i ∧ sum + i < 0x8000000000000000 then
        integerSum? (sum + i) rest
      else
        none

-- The sum after rounding every term and every intermediate result.
def floatSum (terms : List Number) : Binary64 := terms.foldl (fun sum n => sum.add n.approx) .zero

def sumOf (terms : List Number) : Json :=
  match integerSum? 0 terms with
  | some n => int n
  | none   => ofBinary64 (floatSum terms)

-- Adds the elements of an array of one kind: numbers are summed up, strings and arrays are joined.
def add : Json → Json
  | arr (v :: rest) =>
    let items := v :: rest
    if rest.all (·.kind == v.kind) then
      match v with
      | num _ => sumOf (items.filterMap toNumber?)
      | str _ => str (String.join (items.filterMap fun | str s => some s | _ => none))
      | arr _ => arr (items.flatMap fun | arr xs => xs | _ => [])
      | _     => null
    else null
  | _ => null

-- A number of a mapped array with the operand of the mapping.
def arithmetic (f : Binary64 → Binary64 → Binary64) (operand : Binary64) : Json → Json
  | num n => ofBinary64 (f n.approx operand)
  | _     => null

end JsonQuery.Json
