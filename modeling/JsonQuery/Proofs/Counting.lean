import Mathlib.Algebra.BigOperators.Group.List.Basic
import Mathlib.Algebra.GroupWithZero.Nat
import JsonQuery.Proofs.Preorder
import JsonQuery.Proofs.Removal

namespace JsonQuery

-- The key that a step names. Indices have no name, since they change when elements go away.
def Step.name? : Step → Option String
  | key k   => some k
  | index _ => none

namespace Location

variable {s : Step} {ls : List Location}

theorem nodup_below (hn : ls.Nodup) : (below s ls).Nodup := by
  refine hn.filterMap fun l m x hl hm => ?_
  cases l <;> cases m <;> simp_all

-- Locations fall apart into those that begin with the same step.
theorem perm_below {ts : List Step} (hn : ls.Nodup) (ht : ts.Nodup)
    (h : ∀ l ∈ ls, ∃ t ∈ ts, ∃ rest, l = t :: rest) :
    ls.Perm (ts.flatMap fun t => (below t ls).map (t :: ·)) := by
  refine (List.perm_ext_iff_of_nodup hn ?_).mpr fun l => ?_
  · have hb t := (nodup_below (s := t) hn).map (f := (t :: ·)) fun _ _ => List.tail_eq_of_cons_eq
    refine List.nodup_flatMap.mpr ⟨fun t _ => hb t, ht.imp fun hne l hl hl' => hne ?_⟩
    obtain ⟨_, _, rfl⟩ := List.mem_map.mp hl
    obtain ⟨_, _, e⟩ := List.mem_map.mp hl'
    exact (List.head_eq_of_cons_eq e).symm
  · simp only [List.mem_flatMap, List.mem_map, mem_below]
    constructor
    case mp =>
      intro hl
      obtain ⟨t, ht, rest, rfl⟩ := h l hl
      exact ⟨t, ht, rest, hl, rfl⟩
    case mpr =>
      rintro ⟨t, _, rest, hl, rfl⟩
      exact hl

-- Locations of one length that begin with a step are all the same if one of them ends with it.
theorem below_of_mem (hn : ls.Nodup) (hl : ∀ l ∈ ls, ∀ m ∈ ls, m.length = l.length)
    (hs : [s] ∈ ls) : below s ls = [[]] := by
  have hnil : ∀ l ∈ below s ls, l = [] := fun l h => by
    simpa using hl _ hs _ (mem_below.mp h)
  have hmem : [] ∈ below s ls := mem_below.mpr hs
  have hnb := nodup_below (s := s) hn
  match hb : below s ls with
  | []          => simp [hb] at hmem
  | [l]         => rw [hnil l (by simp [hb])]
  | l :: m :: _ =>
    rw [hb] at hnb
    simp [hnil l (by simp [hb]), hnil m (by simp [hb])] at hnb

end Location

-- A sum over a list whose members count for themselves if they pass a test, and for something else
-- in any case.
theorem sum_eq_filter_add {α : Type} {xs : List α} {test : α → Bool} {f g h : α → Nat}
    (hx : ∀ x ∈ xs, h x = (if test x then f x else 0) + g x) :
    (xs.map h).sum = ((xs.filter test).map f).sum + (xs.map g).sum := by
  induction xs with
  | nil => rfl
  | cons x xs ih =>
    obtain ⟨hx, hr⟩ := List.forall_mem_cons.mp hx
    rw [List.map_cons, List.sum_cons, List.map_cons, List.sum_cons, ih hr, hx, List.filter_cons]
    split <;> simp <;> omega

namespace Json

variable {v c : Json} {items : List Json} {members : List (String × Json)} {ls : List Location}
  {l m : Location} {s t : Step}

theorem sequence_perm_filter (ks : List String) (hn : (Members.keys members).Nodup) :
    (Removal.sequence ks members).Perm (Removal.filter ks members) := by
  induction ks generalizing members with
  | nil => simp [Removal.sequence, Removal.filter]
  | cons k ks ih =>
    have hf : Removal.filter (k :: ks) members =
        Removal.filter ks (members.filter (·.1 ≠ k)) := by
      simp [Removal.filter, List.filter_filter, Bool.and_comm]
    rw [hf]
    exact (ih (Members.keys_nodup_remove hn)).trans ((Members.remove_perm hn).filter _)

theorem children_arr (items : List Json) :
    (arr items).children = items.zipIdx.map fun m => (.index m.2, m.1) :=
  List.ext_getElem (by simp [children]) fun i _ _ => by simp [children]

-- The children that stay, whatever their order is.
theorem children_removeAll (hv : v.WellFormed) (ls : List Location) :
    ((v.removeAll .sequence ls).children.map fun m => (m.1.name?, m.2)).Perm
      ((v.children.filter fun m => [m.1] ∉ ls).map fun m =>
        (m.1.name?, m.2.removeAll .sequence (Location.below m.1 ls))) := by
  cases v
  case arr items =>
    have hname (xs : List Json) : (arr xs).children.map (fun m => (m.1.name?, m.2)) =
        xs.map fun x => (none, x) :=
      List.ext_getElem (by simp [children]) fun i _ _ => by simp [children, Step.name?]
    rw [removeAll, hname, removeItems_eq, children_arr, List.filter_map, List.map_map, List.map_map]
    rfl
  case obj members =>
    have hkeys : (Members.keys (Members.mapValues
        (fun k x => x.removeAll .sequence (Location.below (.key k) ls)) members)).Nodup := by
      simpa using hv.keys_nodup
    have hp := (sequence_perm_filter (lastKeys ls) hkeys).map fun m => (some m.1, m.2)
    rw [removeAll_obj]
    simpa [children, Removal.filter, Members.mapValues, List.filter_map, Function.comp_def,
      Step.name?, mem_lastKeys] using hp
  all_goals simp [removeAll, children]

theorem nodes_eq (v : Json) : v.nodes = (v.children.map (·.2.nodes)).sum + 1 := by
  have items (xs : List Json) : nodesOfItems xs = (xs.map nodes).sum := by
    induction xs with
    | nil => rfl
    | cons x rest ih => simp [nodesOfItems, ih]
  have members (ms : List (String × Json)) : nodesOfMembers ms = (ms.map (·.2.nodes)).sum := by
    induction ms with
    | nil => rfl
    | cons m rest ih => simp [nodesOfMembers, ih]
  cases v
  case arr xs =>
    have hx : (arr xs).children.map (·.2.nodes) = xs.map nodes :=
      List.ext_getElem (by simp [children]) fun i _ _ => by simp [children]
    rw [nodes, items, hx]
  case obj ms => simp [nodes, members, children, Function.comp_def]
  all_goals rfl

-- The number of values at a location and below it.
def nodesAt (v : Json) (l : Location) : Nat := ((v.at? l).map nodes).getD 0

theorem nodesAt_cons (hc : v.child? s = some c) (l : Location) :
    v.nodesAt (s :: l) = c.nodesAt l := by
  simp [nodesAt, at?_cons, hc]

theorem exists_step_of_at? (hl : l ≠ []) (hc : (v.at? l).isSome) :
    ∃ t ∈ v.steps, ∃ rest, l = t :: rest := by
  cases l with
  | nil         => exact absurd rfl hl
  | cons t rest =>
    rw [at?_cons] at hc
    cases hx : v.child? t with
    | none   => simp [hx] at hc
    | some c =>
      have hm := List.mem_map_of_mem (f := (·.1)) (mem_children_of_child? hx)
      exact ⟨t, map_children v ▸ hm, rest, rfl⟩

-- The nodes at some locations are counted child by child.
theorem sum_nodesAt (hv : v.WellFormed) (hn : ls.Nodup)
    (h : ∀ l ∈ ls, l ≠ [] ∧ (v.at? l).isSome) : (ls.map v.nodesAt).sum =
      (v.children.map fun m => ((Location.below m.1 ls).map m.2.nodesAt).sum).sum := by
  have hp := Location.perm_below hn (nodup_steps hv) fun l hl =>
    exists_step_of_at? (h l hl).1 (h l hl).2
  rw [(hp.map v.nodesAt).sum_eq, ← map_children, List.flatMap_map, List.map_flatMap, List.flatMap,
    List.sum_flatten, List.map_map]
  refine congrArg List.sum (List.map_congr_left fun m hm => ?_)
  have hc := child?_of_mem_children (nodup_steps hv) hm
  simp [nodesAt_cons hc, Function.comp_def]

-- The nodes of a document are those that stay and those that are removed.
theorem nodes_removeAll (hv : v.WellFormed) (hn : ls.Nodup)
    (hl : ∀ l ∈ ls, ∀ m ∈ ls, m.length = l.length)
    (h : ∀ l ∈ ls, l ≠ [] ∧ (v.at? l).isSome) :
    v.nodes = (v.removeAll .sequence ls).nodes + (ls.map v.nodesAt).sum := by
  induction v using inductionOnChildren generalizing ls with
  | h v ih =>
    have hstay := ((children_removeAll hv ls).map (·.2.nodes)).sum_eq
    simp only [List.map_map, Function.comp_def] at hstay
    have hchild : ∀ m ∈ v.children, m.2.nodes = (if decide ([m.1] ∉ ls) then
          (m.2.removeAll .sequence (Location.below m.1 ls)).nodes else 0) +
        ((Location.below m.1 ls).map m.2.nodesAt).sum := by
      intro ⟨t, c⟩ hm
      have hc := child?_of_mem_children (nodup_steps hv) hm
      have hnb := Location.nodup_below (s := t) hn
      by_cases ht : [t] ∈ ls
      case pos => simp [Location.below_of_mem hn hl ht, ht, nodesAt, at?_nil]
      case neg =>
        have hb := ih t c hm (hv.child? hc) hnb (fun l hlb m hmb => by
          simpa using hl _ (Location.mem_below.mp hlb) _ (Location.mem_below.mp hmb))
          fun l hlb => ⟨fun e => ht (Location.mem_below.mp (e ▸ hlb)), by
            simpa [at?_cons, hc] using (h _ (Location.mem_below.mp hlb)).2⟩
        simpa [ht] using hb
    rw [nodes_eq v, nodes_eq (v.removeAll .sequence ls), hstay, sum_nodesAt hv hn h,
      sum_eq_filter_add hchild]
    omega

end Json

end JsonQuery
