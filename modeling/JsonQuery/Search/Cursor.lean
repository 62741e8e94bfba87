import JsonQuery.Error
import JsonQuery.Search.Matcher
import JsonQuery.Search.Options
import JsonQuery.Total

namespace JsonQuery

-- A value that a search still has to visit.
structure Visit where
  location : Location
  value    : Json

-- A search that is under way: the values still to be visited, the next one first.
structure Search where
  matcher : Matcher
  options : SearchOptions
  stack   : List Visit

namespace Visit

-- The children of a value in order.
def children (v : Visit) : List Visit :=
  match v.value with
  | .arr items  => items.mapIdx fun i x => ⟨v.location ++ [.index i], x⟩
  | .obj ms     => ms.map fun (k, x) => ⟨v.location ++ [.key k], x⟩
  | _           => []

-- The number of values that a visit leads to, itself included.
def work (v : Visit) : Nat := v.value.nodes

theorem work_eq (v : Visit) : v.work = total (v.children.map work) + 1 := by
  have items : ∀ (xs : List Json) (f : Nat → Json → Visit), (∀ i x, (f i x).value = x) →
      Json.nodesOfItems xs = total ((xs.mapIdx f).map work) := by
    intro xs
    induction xs with
    | nil => simp [Json.nodesOfItems, total]
    | cons x rest ih =>
      intro f hf
      simp only [Json.nodesOfItems, List.mapIdx_cons, List.map_cons, total_cons]
      rw [ih (fun i => f (i + 1)) (fun i x => hf (i + 1) x)]
      simp [work, hf]
  have members : ∀ (ms : List (String × Json)) (f : String × Json → Visit),
      (∀ m, (f m).value = m.2) → Json.nodesOfMembers ms = total ((ms.map f).map work) := by
    intro ms
    induction ms with
    | nil => simp [Json.nodesOfMembers, total]
    | cons m rest ih =>
      intro f hf
      obtain ⟨k, x⟩ := m
      simp only [Json.nodesOfMembers, List.map_cons, total_cons]
      rw [ih f hf]
      simp [work, hf]
  simp only [children]
  cases hv : v.value with
  | arr xs =>
    simp only [work, hv, Json.nodes]
    rw [items xs (fun i x => ⟨v.location ++ [.index i], x⟩) fun _ _ => rfl]
  | obj ms =>
    simp only [work, hv, Json.nodes]
    rw [members ms (fun (k, x) => ⟨v.location ++ [.key k], x⟩) fun _ => rfl]
  | _ => simp [work, hv, Json.nodes, total]

end Visit

namespace Search

def start (matcher : Matcher) (options : SearchOptions) (v : Json) : Search :=
  ⟨matcher, options, [⟨[], v⟩]⟩

-- Whether a value or the key that it is found under matches.
def finds (s : Search) (v : Visit) : Bool :=
  (s.options.keys &&
    match v.location.getLast? with
    | some (.key k) => s.matcher.accepts s.options.caseSensitive (.str k)
    | _ => false) ||
  (s.options.values && s.matcher.accepts s.options.caseSensitive v.value)

def work (s : Search) : Nat := total (s.stack.map Visit.work)

-- The next result, and the search after it. The root is no result. A value that lies too deep ends
-- the search, whether it matches or not.
def next? (s : Search) : Option (Except Error Location × Search) :=
  match hs : s.stack with
  | [] => none
  | v :: rest =>
    if s.options.maxDepth < v.location.length then
      some (.error (.tooDeep s.options.maxDepth), { s with stack := [] })
    else
      have : work { s with stack := v.children ++ rest } < s.work := by
        simp only [work, hs, List.map_cons, total_cons, List.map_append, total_append,
          v.work_eq]
        omega
      if !v.location.isEmpty && s.finds v then
        some (.ok v.location, { s with stack := v.children ++ rest })
      else
        next? { s with stack := v.children ++ rest }
termination_by s.work

theorem work_lt_of_next? {s s' : Search} {r : Except Error Location}
    (h : s.next? = some (r, s')) : s'.work < s.work := by
  fun_induction next? s with
  | case1 => cases h
  | case2 s v rest hs =>
    cases h
    have := v.work_eq
    simp only [work, hs, List.map_cons, total_cons, List.map_nil, total_nil]
    omega
  | case3 => cases h; assumption
  | case4 s v rest hs _ hlt _ ih => exact Nat.lt_trans (ih h) hlt

-- All results of a search that does not fail.
def all (s : Search) : Except Error (List Location) :=
  match h : s.next? with
  | none => .ok []
  | some (.error e, _) => .error e
  | some (.ok l, s') =>
    have := work_lt_of_next? h
    s'.all.map (l :: ·)
termination_by s.work

end Search

end JsonQuery
