import JsonQuery.Json.Basic

namespace JsonQuery

-- One step down into a document.
inductive Step where
  | key (name : String)
  | index (i : Nat)
  deriving DecidableEq

-- The steps from the root of a document to one of its values.
abbrev Location := List Step

instance : LawfulBEq Location := inferInstance

namespace Step

def text : Step → String
  | key name => name
  | index i  => i.repr

def toJson : Step → Json
  | key name => .str name
  | index i  => .ofNat i

-- Keys come before indices. Keys are ordered by code points and indices by number.
def compare : Step → Step → Ordering
  | key a,   key b   => Ord.compare a b
  | key _,   index _ => .lt
  | index _, key _   => .gt
  | index a, index b => Ord.compare a b

instance : Std.OrientedCmp compare where
  eq_swap {a b} := by
    cases a <;> cases b <;> simp only [compare, Ordering.swap_lt, Ordering.swap_gt]
    case key.key     => exact Std.OrientedOrd.eq_swap
    case index.index => exact Std.OrientedOrd.eq_swap

instance : Std.TransCmp compare where
  isLE_trans {a b c} h h' := by
    cases a <;> cases b <;> cases c <;> simp only [compare] at h h' ⊢ <;> try cases h
    case key.key.key       => exact Std.TransOrd.isLE_trans h h'
    case index.index.index => exact Std.TransOrd.isLE_trans h h'
    all_goals first | rfl | cases h'

instance : Std.LawfulEqCmp compare where
  eq_of_compare {a b} h := by
    cases a <;> cases b <;> simp only [compare, reduceCtorEq] at h
    case key.key     => exact congrArg key (Std.LawfulEqOrd.eq_of_compare h)
    case index.index => exact congrArg index (Std.LawfulEqOrd.eq_of_compare h)

-- How a step is written in a pointer: the slash separates steps, and the tilde introduces the two
-- characters that cannot stand for themselves.
def escape (c : Char) : List Char :=
  if c = '~' then ['~', '0'] else if c = '/' then ['~', '1'] else [c]

def token (s : Step) : List Char := s.text.toList.flatMap escape

end Step

namespace Json

def child? : Json → Step → Option Json
  | obj members, .key name => Members.get? members name
  | arr items,   .index i  => items[i]?
  | _,           _         => none

-- The value at a location, if the location exists.
def at? (v : Json) : Location → Option Json
  | []        => some v
  | s :: rest =>
    match v.child? s with
    | some c => c.at? rest
    | none   => none

-- The steps to all children of a value, in order. A scalar has none.
def steps : Json → List Step
  | obj members => (Members.keys members).map .key
  | arr items   => (List.range items.length).map .index
  | _           => []

theorem at?_nil (v : Json) : v.at? [] = some v :=
  rfl

theorem at?_cons (v : Json) (s : Step) (rest : Location) :
    v.at? (s :: rest) = (v.child? s).bind (·.at? rest) := by
  rw [at?]
  split <;> simp [*]

theorem at?_append (v : Json) (l m : Location) : v.at? (l ++ m) = (v.at? l).bind (·.at? m) := by
  induction l generalizing v with
  | nil => rfl
  | cons s l ih =>
    rw [List.cons_append, at?_cons, at?_cons]
    cases v.child? s <;> simp [ih]

variable {v c : Json} {s : Step} {l : Location} {items : List Json} {ms : List (String × Json)}

theorem WellFormed.keys_nodup (h : (obj ms).WellFormed) : (Members.keys ms).Nodup :=
  h.1

theorem WellFormed.length_lt (h : (arr items).WellFormed) : items.length < 0x8000000000000000 :=
  h.1

theorem WellFormed.child? (hv : v.WellFormed) (h : v.child? s = some c) : c.WellFormed := by
  cases v <;> cases s <;> simp only [Json.child?, reduceCtorEq] at h
  case arr.index items i =>
    exact wellFormedItems_iff.mp hv.2 c (List.mem_of_getElem? h)
  case obj.key ms k =>
    exact wellFormedMembers_iff.mp hv.2 (k, c) (Members.mem_of_get? h)

theorem WellFormed.at? (hv : v.WellFormed) (h : v.at? l = some c) : c.WellFormed := by
  induction l generalizing v with
  | nil => exact Option.some.inj h ▸ hv
  | cons s l ih =>
    rw [at?_cons] at h
    obtain ⟨d, hd, h⟩ := Option.bind_eq_some_iff.mp h
    exact ih (hv.child? hd) h

theorem at?_snoc (v : Json) (l : Location) (s : Step) :
    v.at? (l ++ [s]) = (v.at? l).bind (·.child? s) := by
  rw [at?_append]
  cases v.at? l with
  | none => rfl
  | some c => rw [Option.bind_some, Option.bind_some, at?_cons]; cases c.child? s <;> rfl

theorem nodup_steps (h : v.WellFormed) : v.steps.Nodup := by
  cases v <;> simp only [steps, List.nodup_nil]
  case arr items =>
    simp [List.Nodup, List.pairwise_map]
    exact List.pairwise_lt_range.imp Nat.ne_of_lt
  case obj ms =>
    have hn := h.keys_nodup
    simp only [List.Nodup, List.pairwise_map] at hn ⊢
    exact hn.imp fun h e => h (Step.key.inj e)

theorem child?_isSome_of_mem_steps (h : s ∈ v.steps) : (v.child? s).isSome := by
  cases v <;> simp only [steps, List.mem_map, List.not_mem_nil] at h
  case arr items =>
    obtain ⟨i, hi, e⟩ := h
    subst e
    simpa [Json.child?] using hi
  case obj ms =>
    obtain ⟨k, hk, e⟩ := h
    subst e
    exact Members.contains_iff_mem_keys.mpr hk

end Json

namespace Location

-- The location as a JSON Pointer: every step is preceded by a slash.
def pointer (l : Location) : String := String.ofList (l.flatMap fun s => '/' :: s.token)

-- Lexicographic order, a location before all those below it.
def compare : Location → Location → Ordering
  | [],     []     => .eq
  | [],     _ :: _ => .lt
  | _ :: _, []     => .gt
  | a :: l, b :: m => (a.compare b).then (compare l m)

theorem compare_eq_compareLex : compare = List.compareLex Step.compare := by
  funext l m
  induction l generalizing m with
  | nil => cases m <;> simp [compare, List.compareLex_nil_nil, List.compareLex_nil_cons]
  | cons a l ih =>
    cases m with
    | nil      => simp [compare, List.compareLex_cons_nil]
    | cons b m => simp [compare, List.compareLex_cons_cons, ih]

instance : Std.TransCmp compare :=
  compare_eq_compareLex ▸ inferInstance

instance : Std.LawfulEqCmp compare :=
  compare_eq_compareLex ▸ inferInstance

end Location

end JsonQuery
