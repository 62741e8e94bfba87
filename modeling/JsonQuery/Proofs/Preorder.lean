import Mathlib.Data.List.Nodup
import JsonQuery.Json.Location

namespace JsonQuery.Json

-- The children of a value in order, with the steps to them.
def children : Json → List (Step × Json)
  | arr items => items.mapIdx fun i x => (.index i, x)
  | obj ms    => ms.map fun (k, x) => (.key k, x)
  | _         => []

mutual

-- All values of a document with their locations, every value before those inside of it. `place` is
-- where the document stands.
def preorder (place : Location) : Json → List (Location × Json)
  | arr items => (place, arr items) :: preorderItems place 0 items
  | obj ms    => (place, obj ms) :: preorderMembers place ms
  | v         => [(place, v)]

def preorderItems (place : Location) (i : Nat) : List Json → List (Location × Json)
  | []        => []
  | x :: rest => x.preorder (place ++ [.index i]) ++ preorderItems place (i + 1) rest

def preorderMembers (place : Location) : List (String × Json) → List (Location × Json)
  | []             => []
  | (k, x) :: rest => x.preorder (place ++ [.key k]) ++ preorderMembers place rest

end

-- Every step of the document leads to one child.
def Distinct (v : Json) : Prop := ∀ l c, v.at? l = some c → c.steps.Nodup

variable {v c x : Json} {s : Step} {l m place : Location}

theorem preorder_eq (place : Location) (v : Json) : v.preorder place =
    (place, v) :: v.children.flatMap fun m => m.2.preorder (place ++ [m.1]) := by
  have items (xs : List Json) (i : Nat) : preorderItems place i xs =
      (xs.mapIdx fun j x => (Step.index (i + j), x)).flatMap fun m =>
        m.2.preorder (place ++ [m.1]) := by
    induction xs generalizing i with
    | nil => rfl
    | cons x rest ih =>
      simp [preorderItems, ih, List.mapIdx_cons, Nat.add_assoc, Nat.add_comm 1]
  have members (ms : List (String × Json)) : preorderMembers place ms =
      (ms.map fun (k, x) => (Step.key k, x)).flatMap fun m => m.2.preorder (place ++ [m.1]) := by
    induction ms with
    | nil => rfl
    | cons m rest ih => simp [preorderMembers, ih]
  cases v
  case arr xs => simp [preorder, children, items]
  case obj ms => simp [preorder, children, members]
  all_goals rfl

theorem map_children (v : Json) : v.children.map (·.1) = v.steps := by
  cases v <;> simp only [children, steps, List.map_nil]
  case arr items =>
    exact List.ext_getElem (by simp) fun i _ _ => by simp
  case obj ms => simp [Members.keys]

theorem mem_children_of_child? (h : v.child? s = some c) : (s, c) ∈ v.children := by
  cases v <;> cases s <;> simp only [child?, reduceCtorEq] at h
  case arr.index items i =>
    obtain ⟨hi, e⟩ := List.getElem?_eq_some_iff.mp h
    exact List.mem_mapIdx.mpr ⟨i, hi, by rw [e]⟩
  case obj.key ms k => exact List.mem_map.mpr ⟨(k, c), Members.mem_of_get? h, rfl⟩

theorem child?_of_mem_children (hn : v.steps.Nodup) (h : (s, c) ∈ v.children) :
    v.child? s = some c := by
  cases v <;> simp only [children, List.not_mem_nil] at h
  case arr items =>
    obtain ⟨i, hi, e⟩ := List.mem_mapIdx.mp h
    cases e
    exact List.getElem?_eq_getElem hi
  case obj ms =>
    obtain ⟨⟨k, x⟩, hm, e⟩ := List.mem_map.mp h
    cases e
    exact Members.get?_of_mem (hn.of_map _) hm

-- Induction over a document by the children of its values.
@[elab_as_elim]
theorem inductionOnChildren {motive : Json → Prop} (v : Json)
    (h : ∀ v, (∀ s c, (s, c) ∈ v.children → motive c) → motive v) : motive v := by
  refine childInduction (fun v hv => h v ?scalar) (fun items ih => h _ ?arr) (fun ms ih => h _ ?obj) v
  case scalar => cases v <;> simp_all [children, isContainer]
  case arr =>
    intro s c hc
    obtain ⟨i, hi, e⟩ := List.mem_mapIdx.mp hc
    cases e
    exact ih _ (List.getElem_mem hi)
  case obj =>
    intro s c hc
    obtain ⟨m, hm, e⟩ := List.mem_map.mp hc
    cases e
    exact ih m hm

-- Where a document stands is in front of all its locations.
theorem preorder_append (place l : Location) (v : Json) :
    v.preorder (place ++ l) = (v.preorder l).map fun n => (place ++ n.1, n.2) := by
  induction v using inductionOnChildren generalizing l with
  | h v ih =>
    rw [preorder_eq, preorder_eq l, List.map_cons, List.map_flatMap]
    refine congrArg _ (List.flatMap_congr fun m hm => ?_)
    rw [List.append_assoc, ih m.1 m.2 hm]

theorem WellFormed.distinct (hv : v.WellFormed) : v.Distinct :=
  fun _ _ h => nodup_steps (hv.at? h)

theorem Distinct.steps (h : v.Distinct) : v.steps.Nodup := h [] v rfl

theorem distinct_of_child? (hn : v.steps.Nodup) (h : ∀ s c, v.child? s = some c → c.Distinct) :
    v.Distinct := by
  intro l c hc
  cases l with
  | nil      => exact Option.some.inj hc ▸ hn
  | cons s l =>
    rw [at?_cons] at hc
    obtain ⟨d, hd, hc⟩ := Option.bind_eq_some_iff.mp hc
    exact h s d hd l c hc

theorem Distinct.child? (h : v.Distinct) (hc : v.child? s = some c) : c.Distinct :=
  fun l d hd => h (s :: l) d (by simp [at?_cons, hc, hd])

-- A document has no other values than those at its locations.
theorem mem_preorder (hv : v.Distinct) :
    (m, x) ∈ v.preorder place ↔ ∃ l, m = place ++ l ∧ v.at? l = some x := by
  induction v using inductionOnChildren generalizing place with
  | h v ih =>
    rw [preorder_eq, List.mem_cons, List.mem_flatMap]
    constructor
    case mp =>
      rintro (h | ⟨⟨s, c⟩, hc, h⟩)
      case inl =>
        cases h
        exact ⟨[], by simp, rfl⟩
      case inr =>
        have hchild := child?_of_mem_children hv.steps hc
        obtain ⟨l, e, hl⟩ := (ih s c hc (hv.child? hchild)).mp h
        exact ⟨s :: l, by simp [e], by simp [at?_cons, hchild, hl]⟩
    case mpr =>
      rintro ⟨_ | ⟨s, l⟩, e, hl⟩
      case nil =>
        cases hl
        exact .inl (by simp [e])
      case cons =>
        rw [at?_cons] at hl
        obtain ⟨c, hchild, hl⟩ := Option.bind_eq_some_iff.mp hl
        have hc := mem_children_of_child? hchild
        exact .inr ⟨(s, c), hc, (ih s c hc (hv.child? hchild)).mpr ⟨l, by simp [e], hl⟩⟩

theorem nodup_preorder (hv : v.Distinct) : ((v.preorder place).map (·.1)).Nodup := by
  induction v using inductionOnChildren generalizing place with
  | h v ih =>
    have below {s c l x} (hc : (s, c) ∈ v.children) (h : (l, x) ∈ c.preorder (place ++ [s])) :
        ∃ m, l = place ++ s :: m := by
      have hd := hv.child? (child?_of_mem_children hv.steps hc)
      obtain ⟨m, e, _⟩ := (mem_preorder hd).mp h
      exact ⟨m, by simp [e]⟩
    rw [preorder_eq, List.map_cons, List.nodup_cons, List.map_flatMap, List.nodup_flatMap]
    refine ⟨?root, fun ⟨s, c⟩ hc => ?inside, ?apart⟩
    case root =>
      simp only [List.mem_flatMap, List.mem_map, Prod.exists, not_exists, not_and]
      intro s c hc l x h e
      obtain ⟨m, e'⟩ := below hc h
      simp [e'] at e
    case inside => exact ih s c hc (hv.child? (child?_of_mem_children hv.steps hc))
    case apart =>
      have hn : (v.children.map (·.1)).Nodup := map_children v ▸ hv.steps
      refine (List.pairwise_map.mp hn).imp_of_mem fun ha hb hne l hla hlb => ?_
      obtain ⟨⟨_, _⟩, hla, e⟩ := List.mem_map.mp hla
      obtain ⟨⟨_, _⟩, hlb, e'⟩ := List.mem_map.mp hlb
      obtain ⟨m, ea⟩ := below ha hla
      obtain ⟨m', eb⟩ := below hb hlb
      rw [← e'] at e
      simp only [ea, eb, List.append_cancel_left_eq, List.cons.injEq] at e
      exact hne e.1

end JsonQuery.Json
