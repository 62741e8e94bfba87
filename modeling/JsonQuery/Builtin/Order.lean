import JsonQuery.Json.Order

namespace JsonQuery.Json

def sort : Json → Json
  | arr items =>
    let order := Collation.of items
    arr (items.mergeSort fun a b => order.compare a b != .gt)
  | _ => null

-- The first of the smallest elements.
def leastOf (order : Collation) (best : Json) (items : List Json) : Json :=
  items.foldl (fun best v => if order.compare best v = .gt then v else best) best

-- The last of the largest elements.
def greatestOf (order : Collation) (best : Json) (items : List Json) : Json :=
  items.foldl (fun best v => if order.compare best v = .gt then best else v) best

def min : Json → Json
  | arr (v :: rest) => leastOf (Collation.of (v :: rest)) v rest
  | _ => null

def max : Json → Json
  | arr (v :: rest) => greatestOf (Collation.of (v :: rest)) v rest
  | _ => null

-- The elements that equal no earlier one. `seen` holds those that were kept, the last one first.
def uniqueFrom (seen : List Json) : List Json → List Json
  | [] => []
  | v :: rest =>
    if seen.any (·.equal v) then uniqueFrom seen rest else v :: uniqueFrom (v :: seen) rest

def unique : Json → Json
  | arr items => arr (uniqueFrom [] items)
  | _ => null

def reverse : Json → Json
  | arr items => arr items.reverse
  | str s     => str (String.ofList s.toList.reverse)
  | _         => null

end JsonQuery.Json
