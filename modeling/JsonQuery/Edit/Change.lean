import JsonQuery.Error

namespace JsonQuery

namespace Json

-- Changes one child of a value. The child has to be there.
def alterChild? (v : Json) (s : Step) (f : Json → Option Json) : Option Json :=
  match v, s with
  | obj ms, .key k =>
    (Members.get? ms k).bind fun c => (f c).map fun c => obj (Members.insert ms k c)
  | arr items, .index i => items[i]?.bind fun c => (f c).map fun c => arr (items.set i c)
  | _, _ => none

-- Changes the value at a location. The location has to exist.
def alter? (v : Json) (l : Location) (f : Json → Option Json) : Option Json :=
  match l with
  | []        => f v
  | s :: rest => v.alterChild? s fun c => c.alter? rest f

-- Adds a child. An object takes any key, and an array an index up to its length, the elements from
-- there on moving up.
def addChild? (v : Json) (s : Step) (x : Json) : Option Json :=
  match v, s with
  | obj ms, .key k => some (obj (Members.insert ms k x))
  | arr items, .index i => if i ≤ items.length then some (arr (items.insertIdx i x)) else none
  | _, _ => none

-- Removes a child. The last member of an object takes the place of a removed one, and the elements
-- of an array behind a removed one move down.
def removeChild? (v : Json) (s : Step) : Option Json :=
  match v, s with
  | obj ms, .key k => if Members.contains ms k then some (obj (Members.remove ms k)) else none
  | arr items, .index i => if i < items.length then some (arr (items.eraseIdx i)) else none
  | _, _ => none

theorem alter?_nil (v : Json) (f : Json → Option Json) : v.alter? [] f = f v :=
  rfl

theorem alter?_cons (v : Json) (s : Step) (rest : Location) (f : Json → Option Json) :
    v.alter? (s :: rest) f = v.alterChild? s (·.alter? rest f) :=
  rfl

end Json

-- One step of an edit.
inductive Change where
  | replace (l : Location) (x : Json)
  | add (l : Location) (x : Json)
  | remove (l : Location)
  deriving DecidableEq

namespace Change

def location : Change → Location
  | replace l _ | add l _ | remove l => l

def run? (c : Change) (v : Json) : Option Json :=
  match c with
  | replace l x => v.alter? l fun _ => some x
  | add l x =>
    match l.getLast? with
    | none   => some x
    | some s => v.alter? l.dropLast (·.addChild? s x)
  | remove l =>
    match l.getLast? with
    | none   => none
    | some s => v.alter? l.dropLast (·.removeChild? s)

variable {s : Step} {l : Location} {x v : Json}

theorem run?_replace_cons : (replace (s :: l) x).run? v = v.alterChild? s (replace l x).run? :=
  rfl

theorem run?_add_cons (h : l ≠ []) : (add (s :: l) x).run? v = v.alterChild? s (add l x).run? := by
  cases ht : l.getLast? with
  | none => exact absurd (List.getLast?_eq_none_iff.mp ht) h
  | some t =>
    have e : (add l x).run? = (·.alter? l.dropLast (·.addChild? t x)) := by
      funext c
      simp [run?, ht]
    simp [e, run?, List.getLast?_cons, List.dropLast_cons_of_ne_nil h, ht, Json.alter?_cons]

theorem run?_remove_cons (h : l ≠ []) : (remove (s :: l)).run? v = v.alterChild? s (remove l).run? := by
  cases ht : l.getLast? with
  | none => exact absurd (List.getLast?_eq_none_iff.mp ht) h
  | some t =>
    have e : (remove l).run? = (·.alter? l.dropLast (·.removeChild? t)) := by
      funext c
      simp [run?, ht]
    simp [e, run?, List.getLast?_cons, List.dropLast_cons_of_ne_nil h, ht, Json.alter?_cons]

-- Applies changes one after another. `number` counts those that were applied before.
def applyFrom (number : Nat) (v : Json) : List Change → Except Error Json
  | [] => .ok v
  | c :: rest =>
    match c.run? v with
    | some v => applyFrom (number + 1) v rest
    | none   => .error (.unappliable number c.location)

def applyAll (v : Json) (changes : List Change) : Except Error Json := applyFrom 0 v changes

end Change

end JsonQuery
