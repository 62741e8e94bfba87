import JsonQuery.Json.Members
import JsonQuery.Number.Basic

namespace JsonQuery

-- A document, or a part of one.
inductive Json where
  | null
  | bool (b : Bool)
  | num (n : Number)
  | str (s : String)
  | arr (items : List Json)
  | obj (members : List (String × Json))
  deriving Inhabited

inductive Kind where
  | null
  | boolean
  | number
  | string
  | array
  | object
  deriving DecidableEq

def Kind.name : Kind → String
  | null    => "null"
  | boolean => "boolean"
  | number  => "number"
  | string  => "string"
  | array   => "array"
  | object  => "object"

namespace Json

mutual

def decEq : (a b : Json) → Decidable (a = b)
  | null,   null   => isTrue rfl
  | bool a, bool b => if h : a = b then isTrue (h ▸ rfl) else isFalse (fun e => h (bool.inj e))
  | num a,  num b  => if h : a = b then isTrue (h ▸ rfl) else isFalse (fun e => h (num.inj e))
  | str a,  str b  => if h : a = b then isTrue (h ▸ rfl) else isFalse (fun e => h (str.inj e))
  | arr a,  arr b  =>
    match decEqItems a b with
    | isTrue h  => isTrue (h ▸ rfl)
    | isFalse h => isFalse (fun e => h (arr.inj e))
  | obj a,  obj b  =>
    match decEqMembers a b with
    | isTrue h  => isTrue (h ▸ rfl)
    | isFalse h => isFalse (fun e => h (obj.inj e))
  | null,   bool _ | null,   num _  | null,   str _  | null,   arr _  | null,   obj _
  | bool _, null   | bool _, num _  | bool _, str _  | bool _, arr _  | bool _, obj _
  | num _,  null   | num _,  bool _ | num _,  str _  | num _,  arr _  | num _,  obj _
  | str _,  null   | str _,  bool _ | str _,  num _  | str _,  arr _  | str _,  obj _
  | arr _,  null   | arr _,  bool _ | arr _,  num _  | arr _,  str _  | arr _,  obj _
  | obj _,  null   | obj _,  bool _ | obj _,  num _  | obj _,  str _  | obj _,  arr _ =>
    isFalse (fun e => nomatch e)

def decEqItems : (a b : List Json) → Decidable (a = b)
  | [], [] => isTrue rfl
  | [], _ :: _ | _ :: _, [] => isFalse (fun e => nomatch e)
  | a :: as, b :: bs =>
    match decEq a b, decEqItems as bs with
    | isTrue h, isTrue hs => isTrue (h ▸ hs ▸ rfl)
    | isFalse h, _ => isFalse (fun e => h (List.cons.inj e).1)
    | _, isFalse h => isFalse (fun e => h (List.cons.inj e).2)

def decEqMembers : (a b : List (String × Json)) → Decidable (a = b)
  | [], [] => isTrue rfl
  | [], _ :: _ | _ :: _, [] => isFalse (fun e => nomatch e)
  | (k, a) :: as, (l, b) :: bs =>
    if hk : k = l then
      match decEq a b, decEqMembers as bs with
      | isTrue h, isTrue hs => isTrue (hk ▸ h ▸ hs ▸ rfl)
      | isFalse h, _ => isFalse (fun e => h (Prod.mk.inj (List.cons.inj e).1).2)
      | _, isFalse h => isFalse (fun e => h (List.cons.inj e).2)
    else
      isFalse (fun e => hk (Prod.mk.inj (List.cons.inj e).1).1)

end

instance : DecidableEq Json := decEq

def kind : Json → Kind
  | null   => .null
  | bool _ => .boolean
  | num _  => .number
  | str _  => .string
  | arr _  => .array
  | obj _  => .object

def int (n : Int) : Json := num (.int n)

def ofNat (n : Nat) : Json := int n

def isContainer : Json → Bool
  | arr _ | obj _ => true
  | _ => false

mutual

-- What every document in memory satisfies: no object has a key twice, a signed 64 bit integer counts
-- the elements of an array, and an integer fits into 64 bits, with or without a sign.
def WellFormed : Json → Prop
  | num (.int n) => -0x8000000000000000 ≤ n ∧ n < 0x10000000000000000
  | arr items    => items.length < 0x8000000000000000 ∧ WellFormedItems items
  | obj members  => (Members.keys members).Nodup ∧ WellFormedMembers members
  | _            => True

def WellFormedItems : List Json → Prop
  | []        => True
  | x :: rest => x.WellFormed ∧ WellFormedItems rest

def WellFormedMembers : List (String × Json) → Prop
  | []             => True
  | (_, x) :: rest => x.WellFormed ∧ WellFormedMembers rest

end

theorem wellFormedItems_iff {items : List Json} :
    WellFormedItems items ↔ ∀ x ∈ items, x.WellFormed := by
  induction items with
  | nil => simp [WellFormedItems]
  | cons x rest ih => simp [WellFormedItems, ih]

theorem wellFormedMembers_iff {members : List (String × Json)} :
    WellFormedMembers members ↔ ∀ m ∈ members, m.2.WellFormed := by
  induction members with
  | nil => simp [WellFormedMembers]
  | cons m rest ih => simp [WellFormedMembers, ih]

mutual

-- The number of values in a document, itself included.
def nodes : Json → Nat
  | arr items   => nodesOfItems items + 1
  | obj members => nodesOfMembers members + 1
  | _           => 1

def nodesOfItems : List Json → Nat
  | []        => 0
  | x :: rest => x.nodes + nodesOfItems rest

def nodesOfMembers : List (String × Json) → Nat
  | []             => 0
  | (_, x) :: rest => x.nodes + nodesOfMembers rest

end

theorem nodes_le_of_mem_items {x : Json} {items : List Json} (h : x ∈ items) :
    x.nodes ≤ nodesOfItems items := by
  induction items with
  | nil => simp at h
  | cons y rest ih =>
    simp only [nodesOfItems]
    cases List.mem_cons.mp h
    case inl h => exact h ▸ Nat.le_add_right _ _
    case inr h => exact Nat.le_trans (ih h) (Nat.le_add_left _ _)

theorem nodes_le_of_mem_members {m : String × Json} {members : List (String × Json)}
    (h : m ∈ members) : m.2.nodes ≤ nodesOfMembers members := by
  induction members with
  | nil => simp at h
  | cons n rest ih =>
    simp only [nodesOfMembers]
    cases List.mem_cons.mp h
    case inl h => exact h ▸ Nat.le_add_right _ _
    case inr h => exact Nat.le_trans (ih h) (Nat.le_add_left _ _)

-- Induction over a document by its containers and their children.
@[elab_as_elim]
theorem childInduction {motive : Json → Prop} (scalar : ∀ v, v.isContainer = false → motive v)
    (arr : ∀ items, (∀ x ∈ items, motive x) → motive (arr items))
    (obj : ∀ members, (∀ m ∈ members, motive m.2) → motive (obj members)) (v : Json) : motive v := by
  cases v
  case arr items =>
    refine arr items fun x hx => ?_
    have := Nat.lt_succ_of_le (nodes_le_of_mem_items hx)
    exact childInduction scalar arr obj x
  case obj members =>
    refine obj members fun m hm => ?_
    have := Nat.lt_succ_of_le (nodes_le_of_mem_members hm)
    exact childInduction scalar arr obj m.2
  all_goals exact scalar _ rfl
termination_by v.nodes

end Json

end JsonQuery
