import JsonQuery.Proofs.Below

namespace JsonQuery

-- Where a location that stays is found when the values at other locations are gone: an index moves up
-- by the number of indices before it that go away.
def Location.moved (ls : List Location) : Location → Location
  | []              => []
  | .key k :: rest   => .key k :: moved (below (.key k) ls) rest
  | .index i :: rest =>
    .index ((List.range i).countP fun j => [.index j] ∉ ls) :: moved (below (.index i) ls) rest

theorem Location.moved_congr {ls ms : List Location} (h : ∀ l, l ∈ ls ↔ l ∈ ms) (m : Location) :
    moved ls m = moved ms m := by
  induction m generalizing ls ms with
  | nil => rfl
  | cons s rest ih =>
    cases s with
    | key k   => rw [moved, moved, ih fun _ => mem_below_congr h]
    | index i => simp only [moved, h, ih fun _ => mem_below_congr h]

namespace Json

-- The keys that locations of one step name.
def lastKeys (ls : List Location) : List String :=
  ls.filterMap fun
    | [.key k] => some k
    | _        => none

-- How members with some of the keys are removed from an object.
abbrev Removal := List String → List (String × Json) → List (String × Json)

-- All at once: the others stay in their order.
def Removal.filter : Removal := fun ks ms => ms.filter fun m => !ks.contains m.1

-- One after another: every time the last member moves into the place of the removed one.
def Removal.sequence : Removal := fun ks ms => ks.foldl Members.remove ms

-- Only the members with these keys go away, and no other value changes.
def Removal.Exact (d : Removal) : Prop :=
  ∀ ks ms k, (Members.keys ms).Nodup →
    Members.get? (d ks ms) k = if k ∈ ks then none else Members.get? ms k

mutual

-- The document without the values at some locations.
def removeAll (d : Removal) (ls : List Location) : Json → Json
  | arr items => arr (removeItems d ls 0 items)
  | obj ms    => obj (d (lastKeys ls) (removeMembers d ls ms))
  | v         => v

def removeItems (d : Removal) (ls : List Location) : Nat → List Json → List Json
  | _, [] => []
  | i, x :: rest =>
    if [.index i] ∈ ls then removeItems d ls (i + 1) rest
    else x.removeAll d (Location.below (.index i) ls) :: removeItems d ls (i + 1) rest

def removeMembers (d : Removal) (ls : List Location) :
    List (String × Json) → List (String × Json)
  | [] => []
  | (k, x) :: rest => (k, x.removeAll d (Location.below (.key k) ls)) :: removeMembers d ls rest

end

-- All locations at once.
def without (v : Json) (ls : List Location) : Json := v.removeAll .filter ls

-- Two documents that differ in nothing but the order of their keys: at every location both have an
-- array, both have an object, both have the same scalar or none has a value.
def outline : Json → Json
  | arr _ => arr []
  | obj _ => obj []
  | v     => v

def Alike (v w : Json) : Prop := ∀ l, (v.at? l).map outline = (w.at? l).map outline

variable {d d' : Removal} {ls ms : List Location} {v c : Json} {items : List Json}
  {members : List (String × Json)} {s : Step} {l m : Location} {k : String} {i n : Nat}

theorem mem_lastKeys : k ∈ lastKeys ls ↔ [.key k] ∈ ls := by
  simp only [lastKeys, List.mem_filterMap]
  constructor
  case mp =>
    rintro ⟨l, hl, h⟩
    split at h <;> simp_all
  case mpr => exact fun h => ⟨_, h, rfl⟩

theorem removeMembers_eq : removeMembers d ls members =
    Members.mapValues (fun k x => x.removeAll d (Location.below (.key k) ls)) members := by
  induction members with
  | nil => rfl
  | cons m rest ih => simp [removeMembers, Members.mapValues, ih]

theorem removeAll_obj : (obj members).removeAll d ls = obj (d (lastKeys ls)
    (Members.mapValues (fun k x => x.removeAll d (Location.below (.key k) ls)) members)) := by
  rw [removeAll, removeMembers_eq]

theorem exact_filter : Removal.filter.Exact := by
  intro ks ms k _
  rw [Removal.filter, Members.get?_filter fun k => !ks.contains k]
  by_cases h : k ∈ ks <;> simp [h]

theorem exact_sequence : Removal.sequence.Exact :=
  fun _ _ _ hn => Members.get?_foldl_remove hn

-- Without locations nothing changes.
theorem removeAll_nil (hd : ∀ ms, d [] ms = ms) (v : Json) : v.removeAll d [] = v := by
  induction v using childInduction with
  | scalar v h => cases v <;> first | rfl | cases h
  | arr items ih =>
    have hi (i : Nat) : removeItems d [] i items = items := by
      induction items generalizing i with
      | nil => rfl
      | cons x rest ihr =>
        obtain ⟨hx, hr⟩ := List.forall_mem_cons.mp ih
        simp [removeItems, Location.below, hx, ihr hr]
    rw [removeAll, hi]
  | obj members ih =>
    have e : Members.mapValues (fun k x => x.removeAll d (Location.below (.key k) [])) members =
        members :=
      (Members.mapValues_congr fun k x hm => ih (k, x) hm).trans Members.mapValues_id
    rw [removeAll_obj, e, lastKeys, List.filterMap_nil, hd]

theorem child?_removeAll_key (hd : d.Exact) (hv : (obj members).WellFormed) :
    ((obj members).removeAll d ls).child? (.key k) = if [.key k] ∈ ls then none else
      ((obj members).child? (.key k)).map (·.removeAll d (Location.below (.key k) ls)) := by
  rw [removeAll_obj, child?, hd _ _ _ (by simpa using hv.keys_nodup), Members.get?_mapValues]
  simp only [mem_lastKeys]
  rfl

-- An element that stays moves up to the place behind the elements that stay before it.
theorem getElem?_removeItems (hx : items[n]? = some v) (hn : [.index (i + n)] ∉ ls) :
    (removeItems d ls i items)[(List.range' i n).countP fun j => [.index j] ∉ ls]? =
      some (v.removeAll d (Location.below (.index (i + n)) ls)) := by
  induction items generalizing i n with
  | nil => simp at hx
  | cons x rest ih =>
    cases n with
    | zero =>
      have hn : [.index i] ∉ ls := hn
      cases hx
      simp [removeItems, hn]
    | succ n =>
      have hi : i + (n + 1) = i + 1 + n := by omega
      rw [hi] at hn ⊢
      have ih := ih (by simpa using hx) hn
      simp only [removeItems, List.range'_succ, List.countP_cons]
      split <;> simp_all

theorem removeItems_eq : removeItems d ls i items =
    ((items.zipIdx i).filter fun m => [.index m.2] ∉ ls).map fun m =>
      m.1.removeAll d (Location.below (.index m.2) ls) := by
  induction items generalizing i with
  | nil => rfl
  | cons x rest ih => by_cases h : [.index i] ∈ ls <;> simp [removeItems, h, ih]

-- The order of the keys is all that depends on how members are removed.
theorem alike_removeAll (hd : d.Exact) (hd' : d'.Exact) (hv : v.WellFormed) :
    (v.removeAll d ls).Alike (v.removeAll d' ls) := by
  intro l
  induction l generalizing v ls with
  | nil => cases v <;> rfl
  | cons s l ih =>
    rw [at?_cons, at?_cons]
    cases v
    case obj members =>
      cases s with
      | index i => rfl
      | key k =>
        rw [child?_removeAll_key hd hv, child?_removeAll_key hd' hv]
        split
        case isTrue => rfl
        case isFalse =>
          cases hc : (obj members).child? (.key k) with
          | none   => rfl
          | some c => exact ih (hv.child? hc)
    case arr items =>
      cases s with
      | key k => rfl
      | index i =>
        simp only [removeAll, child?, removeItems_eq, List.getElem?_map]
        cases hs : ((items.zipIdx 0).filter fun m => [.index m.2] ∉ ls)[i]? with
        | none   => rfl
        | some m =>
          have hm : m ∈ items.zipIdx := (List.mem_filter.mp (List.mem_of_getElem? hs)).1
          exact ih (wellFormedItems_iff.mp hv.2 m.1 (List.fst_mem_of_mem_zipIdx hm))
    all_goals rfl

-- What stays is found where it moves to.
theorem at?_removeAll (hd : d.Exact) (hv : v.WellFormed) (hc : v.at? m = some c)
    (h : ∀ l ∈ ls, ¬ l <+: m) : (v.removeAll d ls).at? (Location.moved ls m) =
      some (c.removeAll d (Location.beneath m ls)) := by
  induction m generalizing v ls with
  | nil => cases hc; rfl
  | cons s m ih =>
    rw [at?_cons] at hc
    obtain ⟨x, hx, hc⟩ := Option.bind_eq_some_iff.mp hc
    have hs : [s] ∉ ls := fun hs => h [s] hs (by simp)
    have hb : ∀ l ∈ Location.below s ls, ¬ l <+: m := fun l hl hp =>
      h (s :: l) (Location.mem_below.mp hl) (by simpa using hp)
    have ih := ih (hv.child? hx) hc hb
    cases v <;> cases s <;> simp only [child?, reduceCtorEq] at hx
    case arr.index items i =>
      have he := getElem?_removeItems (d := d) (i := 0) hx (by simpa using hs)
      rw [← List.range_eq_range', Nat.zero_add] at he
      rw [Location.moved, at?_cons, removeAll, child?, he]
      exact ih
    case obj.key members k =>
      have hx : (obj members).child? (.key k) = some x := hx
      rw [Location.moved, at?_cons, child?_removeAll_key hd hv, if_neg hs, hx]
      exact ih

-- All at once, the order of the locations does not matter.
theorem without_congr (h : ∀ l, l ∈ ls ↔ l ∈ ms) (v : Json) : v.without ls = v.without ms := by
  simp only [without]
  induction v using childInduction generalizing ls ms with
  | scalar v hs => cases v <;> first | rfl | cases hs
  | arr items ih =>
    simp only [removeAll, removeItems_eq, h]
    refine congrArg arr (List.map_congr_left fun m hm => ?_)
    have hm := (List.mem_filter.mp hm).1
    exact ih m.1 (List.fst_mem_of_mem_zipIdx hm) fun _ => Location.mem_below_congr h
  | obj members ih =>
    have hk : (fun k => !(lastKeys ls).contains k) = fun k => !(lastKeys ms).contains k := by
      funext k
      rw [Bool.eq_iff_iff]
      simp [mem_lastKeys, h]
    have hm := Members.mapValues_congr
      (f := fun k x => x.removeAll .filter (Location.below (.key k) ls))
      (g := fun k x => x.removeAll .filter (Location.below (.key k) ms))
      fun k x hm => ih (k, x) hm fun _ => Location.mem_below_congr h
    rw [removeAll_obj, removeAll_obj, hm]
    simp only [Removal.filter]
    exact congrArg obj (congrArg (List.filter · _) (funext fun m => congrFun hk m.1))

-- A document `r` that is `v` without the values at some locations. Only the order of its keys can be
-- another one, and only in objects that lost some of them.
structure Removed (ls : List Location) (v r : Json) : Prop where
  found : ∀ l ∈ ls, (v.at? l).isSome
  alike : r.Alike (v.without ls)
  kept  : ∀ m c, v.at? m = some c → (∀ l ∈ ls, ¬ l <+: m ∧ ¬ m <+: l) →
    r.at? (Location.moved ls m) = some c

theorem removed_removeAll (hv : v.WellFormed) (h : ∀ l, l ∈ ms ↔ l ∈ ls)
    (hc : ∀ l ∈ ls, (v.at? l).isSome) : Removed ls v (v.removeAll .sequence ms) where
  found := hc
  alike := without_congr h v ▸ alike_removeAll exact_sequence exact_filter hv
  kept m c hc hm := by
    have hm : ∀ l ∈ ms, ¬ l <+: m ∧ ¬ m <+: l := fun l hl => hm l ((h l).mp hl)
    have hb : Location.beneath m ms = [] := List.eq_nil_iff_forall_not_mem.mpr fun l hl =>
      (hm _ (Location.mem_beneath.mp hl)).2 (List.prefix_append m l)
    rw [Location.moved_congr fun l => (h l).symm,
      at?_removeAll exact_sequence hv hc fun l hl => (hm l hl).1, hb, removeAll_nil fun _ => rfl]

end Json

end JsonQuery
