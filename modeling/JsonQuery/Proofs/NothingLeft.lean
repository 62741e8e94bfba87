import JsonQuery.Proofs.Counting
import JsonQuery.Proofs.EarlyEnd
import JsonQuery.Proofs.Lenient

namespace JsonQuery

-- Whether a predicate looks at the values alone, and not at where they stand.
def Predicate.ofValue : Predicate → Bool
  | slice _ | custom _ => false
  | _                  => true

theorem Predicate.accepts_eq {p : Predicate} (h : p.ofValue = true) (place place' : Place)
    (x : Json) : p.accepts place x = p.accepts place' x := by
  cases p <;> first | rfl | cases h

theorem Predicate.select_eq {p : Predicate} (h : p.ofValue = true) (v : Json) :
    p.select v = (v.children.filter fun m => p.accepts (.name "") m.2).map (·.1) := by
  have hp (place : Place) (x : Json) := accepts_eq h place (.name "") x
  cases v
  case arr items =>
    simp [select, Json.children_arr, hp, List.filter_map, Function.comp_def]
  case obj ms => simp [select, Json.children, hp, List.filter_map, Function.comp_def]
  all_goals rfl

theorem Json.children_mapChildren (f : Step → Json → Json) (v : Json) :
    (v.mapChildren f).children = v.children.map fun m => (m.1, f m.1 m.2) := by
  cases v
  case arr items =>
    exact List.ext_getElem (by simp [mapChildren, children]) fun i _ _ => by
      simp [mapChildren, children]
  case obj ms => simp [mapChildren, children, Members.mapValues, Function.comp_def]
  all_goals rfl

namespace Segment

-- Whether the segment takes children by their keys, their values or their indices, and not by how
-- they lie in a part of the array.
def ofValue : Segment → Bool
  | slice _      => false
  | selector p _ => p.ofValue
  | _            => true

def isIndex : Segment → Bool
  | index .. => true
  | _        => false

-- Whether the segment, which is no index, takes a child with this key and value.
def takes : Segment → Option String → Json → Bool
  | key name _,   k, _ => k == some name
  | children _,   _, _ => true
  | elements _,   k, _ => k == none
  | selector p _, _, x => p.accepts (.name "") x
  | _,            _, _ => false

variable {s : Segment} {v : Json} {t : Step} {f : Step → Json → Json}

theorem isSlice_of_ofValue (h : s.ofValue = true) : s.isSlice = false := by
  cases s <;> first | rfl | cases h

theorem fits_of_ofValue (h : s.ofValue = true) : s.fits = true := by
  cases s <;> first | rfl | cases h

theorem mem_steps : t ∈ v.steps ↔ ∃ c, (t, c) ∈ v.children := by
  simp [← Json.map_children]

theorem mem_steps_iff (h : s.ofValue = true) (hi : s.isIndex = false) :
    t ∈ s.steps v ↔ ∃ c, (t, c) ∈ v.children ∧ s.takes t.name? c = true := by
  cases s <;> simp only [ofValue, isIndex, Bool.false_eq_true, Bool.true_eq_false] at h hi
  case key name q =>
    have hs : t ∈ (key name q).steps v ↔ t = .key name ∧ t ∈ v.steps := by
      cases v <;> simp only [steps, List.not_mem_nil, Json.steps, List.mem_map, and_false]
      case arr items => cases t <;> simp
      case obj ms =>
        have hk : Members.contains ms name = true ↔ name ∈ Members.keys ms :=
          Members.contains_iff_mem_keys
        cases hc : Members.contains ms name <;> simp_all +contextual [Members.keys]
    cases t <;> simp [hs, mem_steps, takes, Step.name?, and_comm]
  case children => simp [steps, mem_steps, takes]
  case elements =>
    have hs : t ∈ (elements ‹_›).steps v ↔ t ∈ v.steps ∧ t.name? = none := by
      cases v <;> simp only [steps, List.not_mem_nil, Json.steps, List.mem_map, false_and]
      case arr items => cases t <;> simp [Step.name?]
      case obj ms    => cases t <;> simp [Step.name?]
    simp [hs, mem_steps, takes]
  case selector p text => simp [steps, Predicate.select_eq h, takes]
  all_goals cases v <;> simp [steps, takes]

-- Where only children change that the segment takes anyway, it takes no more of them.
theorem mem_steps_of_mapChildren (h : s.ofValue = true) (hn : v.steps.Nodup)
    (hf : ∀ c, v.child? t = some c → t ∉ s.steps v → f t c = c)
    (ht : t ∈ s.steps (v.mapChildren f)) : t ∈ s.steps v := by
  cases hi : s.isIndex
  case true =>
    have hsel : s.isSelector = false := by
      cases s <;> first | rfl | cases hi
    rwa [steps_congr hsel (Json.kind_mapChildren f v) (Json.steps_mapChildren f v)] at ht
  case false =>
    by_contra hnot
    obtain ⟨_, hm, htakes⟩ := (mem_steps_iff h hi).mp ht
    rw [Json.children_mapChildren] at hm
    obtain ⟨⟨t', c⟩, hmem, e⟩ := List.mem_map.mp hm
    cases e
    have hc := Json.child?_of_mem_children hn hmem
    rw [hf c hc hnot] at htakes
    exact hnot ((mem_steps_iff h hi).mpr ⟨c, hmem, htakes⟩)

end Segment

namespace Path

variable {p : Path} {s : Segment} {v c x : Json} {t : Step} {l : Location} {ls : List Location}
  {m : Location × Json} {o : Options} {r : Json} {u : View}

-- What a path without slices leads to in a value, with the locations from there on.
def reached : Path → Json → List (Location × Json)
  | [],        v => [([], v)]
  | s :: rest, v => (s.steps v).flatMap fun t =>
    (v.child? t).elim [] fun c => (reached rest c).map fun m => (t :: m.1, m.2)

theorem mem_reached_cons : m ∈ reached (s :: p) v ↔
    ∃ t ∈ s.steps v, ∃ c, v.child? t = some c ∧ ∃ n ∈ reached p c, m = (t :: n.1, n.2) := by
  rw [reached, List.mem_flatMap]
  refine exists_congr fun t => and_congr_right fun _ => ?_
  cases v.child? t <;> simp [eq_comm]

theorem of_mem_reached (h : m ∈ reached p v) : v.at? m.1 = some m.2 ∧ m.1.length = p.length := by
  induction p generalizing v m with
  | nil =>
    cases List.mem_singleton.mp h
    exact ⟨rfl, rfl⟩
  | cons s p ih =>
    obtain ⟨t, _, c, hc, n, hn, rfl⟩ := mem_reached_cons.mp h
    obtain ⟨hat, hlen⟩ := ih hn
    exact ⟨by simp [Json.at?_cons, hc, hat], by simp [hlen]⟩

theorem expand_eq_reached (hs : ∀ s ∈ p, s.isSlice = false) (ho : u.origin = none) :
    u.expand p = (reached p u.node).map fun m => ⟨u.location ++ m.1, m.2, none⟩ := by
  induction p generalizing u with
  | nil =>
    obtain ⟨l, x, origin⟩ := u
    cases ho
    simp [View.expand, reached]
  | cons s p ih =>
    obtain ⟨hs, hp⟩ := List.forall_mem_cons.mp hs
    rw [View.expand, View.follow_of_not_slice hs, View.value_of_origin_eq_none ho, reached,
      List.map_flatMap, List.filterMap_eq_flatMap_toList, List.flatMap_assoc]
    refine List.flatMap_congr fun t _ => ?_
    simp only [View.child?, View.source_of_origin_eq_none ho]
    cases u.node.child? t with
    | none   => rfl
    | some c => simp [ih hp, List.map_map, Function.comp_def]

theorem exists_mem_reached_cons : (∃ x, (t :: l, x) ∈ reached (s :: p) v) ↔
    t ∈ s.steps v ∧ ∃ c, v.child? t = some c ∧ ∃ x, (l, x) ∈ reached p c := by
  constructor
  case mp =>
    rintro ⟨x, hx⟩
    obtain ⟨t, ht, c, hc, n, hn, e⟩ := mem_reached_cons.mp hx
    cases e
    exact ⟨ht, c, hc, n.2, hn⟩
  case mpr =>
    rintro ⟨ht, c, hc, x, hx⟩
    exact ⟨x, mem_reached_cons.mpr ⟨t, ht, c, hc, (l, x), hx, rfl⟩⟩

-- The children that the last segment takes are gone, and it takes none of those that stay.
theorem steps_removeAll_eq_nil (hv : v.WellFormed) (hs : s.ofValue = true) (hi : s.isIndex = false)
    (h : ∀ l, l ∈ ls ↔ ∃ x, (l, x) ∈ reached [s] v) : s.steps (v.removeAll .sequence ls) = [] := by
  rw [List.eq_nil_iff_forall_not_mem]
  intro t ht
  obtain ⟨c', hc', htakes⟩ := (Segment.mem_steps_iff hs hi).mp ht
  have hmem := (Json.children_removeAll hv ls).mem_iff.mp
    (List.mem_map_of_mem (f := fun m => (m.1.name?, m.2)) hc')
  obtain ⟨⟨u, c⟩, hu, e⟩ := List.mem_map.mp hmem
  obtain ⟨hu, hstays⟩ := List.mem_filter.mp hu
  have hstays : [u] ∉ ls := by simpa using hstays
  have hbelow : Location.below u ls = [] := by
    rw [List.eq_nil_iff_forall_not_mem]
    intro l hl
    have hl := Location.mem_below.mp hl
    obtain ⟨x, hx⟩ := (h _).mp hl
    have hnil : l = [] := by simpa using (of_mem_reached hx).2
    exact hstays (hnil ▸ hl)
  rw [hbelow, Json.removeAll_nil fun _ => rfl] at e
  obtain ⟨hname, rfl⟩ := Prod.mk.inj e
  rw [← hname] at htakes
  refine hstays ((h _).mpr (exists_mem_reached_cons.mpr ⟨?_, c, ?_, c, List.mem_cons_self⟩))
  · exact (Segment.mem_steps_iff hs hi).mpr ⟨c, hu, htakes⟩
  · exact Json.child?_of_mem_children (Json.nodup_steps hv) hu

-- The induction is on the path: no segment before the last one takes more children than before, and
-- in each of these nothing is left.
theorem reached_removeAll (hv : v.WellFormed) (hs : ∀ s ∈ p, s.ofValue = true) (hp : p ≠ [])
    (hi : ∀ s, p.getLast? = some s → s.isIndex = false)
    (h : ∀ l, l ∈ ls ↔ ∃ x, (l, x) ∈ reached p v) :
    reached p (v.removeAll .sequence ls) = [] := by
  induction p generalizing v ls with
  | nil => exact absurd rfl hp
  | cons s p ih =>
    rw [List.forall_mem_cons] at hs
    by_cases hnil : p = []
    case pos =>
      subst hnil
      rw [reached, steps_removeAll_eq_nil hv hs.1 (hi s rfl) h]
      rfl
    case neg =>
      have h1 : ∀ l ∈ ls, l.length ≠ 1 := fun l hl => by
        obtain ⟨x, hx⟩ := (h l).mp hl
        rw [(of_mem_reached hx).2]
        simpa using hnil
      have hbelow (t : Step) (l : Location) : l ∈ Location.below t ls ↔
          t ∈ s.steps v ∧ ∃ c, v.child? t = some c ∧ ∃ x, (l, x) ∈ reached p c := by
        rw [Location.mem_below, h, exists_mem_reached_cons]
      rw [Json.removeAll_eq_mapChildren h1, List.eq_nil_iff_forall_not_mem]
      intro m hm
      obtain ⟨t, ht, _, hc, n, hn, _⟩ := mem_reached_cons.mp hm
      have ht : t ∈ s.steps v := by
        refine Segment.mem_steps_of_mapChildren hs.1 (Json.nodup_steps hv) (fun c _ hnot => ?_) ht
        have hnone : Location.below t ls = [] := List.eq_nil_iff_forall_not_mem.mpr fun l hl =>
          hnot ((hbelow t l).mp hl).1
        rw [hnone, Json.removeAll_nil fun _ => rfl]
      rw [Json.child?_mapChildren] at hc
      obtain ⟨c, hcv, rfl⟩ := Option.map_eq_some_iff.mp hc
      have hi' : ∀ s, p.getLast? = some s → s.isIndex = false := fun u hu => hi u (by
        rw [List.getLast?_cons, hu]
        rfl)
      rw [ih (hv.child? hcv) hs.2 hnil hi' fun l => by simp [hbelow, ht, hcv]] at hn
      cases hn

theorem targets_eq_reached {limit : Nat} (hv : v.WellFormed) (hs : ∀ s ∈ p, s.ofValue = true)
    (hd : p.length ≤ limit) : targets limit false v p = .ok ((reached p v).map (·.1)) := by
  have hns : ∀ s ∈ p, s.isSlice = false := fun s hm => Segment.isSlice_of_ofValue (hs s hm)
  have hw : ∀ s ∈ p, s.fits = true := fun s hm => Segment.fits_of_ofValue (hs s hm)
  rw [targets_eq_expand hv hw (View.staysWithin_of_not_slice hns _) hd,
    spread_eq_self fun s h => hns s (List.mem_of_getLast? h), expand_eq_reached hns rfl]
  simp [View.root]

theorem get_eq_reached (ho : o.strict = false) (hf : o.onlyFirst = false)
    (ha : ∀ s ∈ p, s.isAddressable = true) (hs : ∀ s ∈ p, s.ofValue = true)
    (hi : ∀ s, p.getLast? = some s → s.isIndex = false) (hd : p.length ≤ o.maxDepth) (v : Json) :
    (Query.mk p o).get v = .ok ((reached p v).map (·.2)) := by
  have hns : ∀ s ∈ p, s.isSlice = false := fun s hm => Segment.isSlice_of_ofValue (hs s hm)
  have hl : ∀ i, p.getLast? ≠ some (.index i true) := fun i h => by cases hi _ h
  have hget := (Query.get_lenient (v := v) hf ho ha hd hl).1 (View.staysWithin_of_not_slice hns _)
  rw [hget, expand_eq_reached hns rfl, List.map_map]
  rfl

theorem nodup_removalOrder (ls : List Location) : (removalOrder ls).Nodup :=
  (pairwise_removalOrder ls).imp fun {l m} hlt e => by
    have hself : m.compare m = .eq := Std.ReflCmp.compare_self
    cases hself.symm.trans (e ▸ hlt)

theorem removalOrder_perm (hn : ls.Nodup) : (removalOrder ls).Perm ls :=
  (List.perm_ext_iff_of_nodup (nodup_removalOrder ls) hn).mpr fun _ => mem_removalOrder

-- After a deletion the path leads to nothing any more, and all that has gone are the values that it
-- led to.
theorem nothing_left (o : Options) (hv : v.WellFormed) (ha : ∀ s ∈ p, s.isAddressable = true)
    (hp : p ≠ []) (hd : p.length ≤ o.maxDepth) (hs : ∀ s ∈ p, s.ofValue = true)
    (hi : ∀ s, p.getLast? = some s → s.isIndex = false) (h : p.delete o v = .ok r) :
    (∀ b, (Query.mk p { o with strict := false, onlyFirst := b }).get r = .ok []) ∧
    ∃ xs, (Query.mk p { o with strict := false, onlyFirst := false }).get v = .ok xs ∧
      v.nodes = r.nodes + (xs.map Json.nodes).sum := by
  obtain ⟨ls, hr⟩ := exists_removals_of_delete h
  have ht := targets_of_removals hv hd hr
  have hw : ∀ s ∈ p, s.fits = true := fun s hm => Segment.fits_of_ofValue (hs s hm)
  obtain ⟨hc, rfl⟩ := eq_removeAll_of_delete hv ha hw hp hr h
  have hls : ls = (reached p v).map (·.1) :=
    Except.ok.inj (ht.symm.trans (targets_eq_reached hv hs hd))
  constructor
  case left =>
    have hnone := get_eq_reached (o := { o with strict := false, onlyFirst := false }) rfl rfl
      ha hs hi hd (v.removeAll .sequence (removalOrder ls))
    rw [reached_removeAll hv hs hp hi fun l => by simp [mem_removalOrder, hls]] at hnone
    rintro (_ | _)
    case false => exact hnone
    case true  => exact Query.get_onlyFirst_of_get (o := { o with strict := false }) hnone
  case right =>
    have hget := get_eq_reached (o := { o with strict := false, onlyFirst := false }) rfl rfl
      ha hs hi hd v
    refine ⟨_, hget, ?_⟩
    have hstays := View.staysWithin_of_not_slice
      (fun s hm => Segment.isSlice_of_ofValue (hs s hm)) (View.root v)
    obtain ⟨hne, hlen⟩ := length_of_mem_removalOrder hp ht
    have hperm := removalOrder_perm (nodup_targets hv hw hstays ht)
    rw [Json.nodes_removeAll hv (nodup_removalOrder ls) hlen fun l hl =>
        ⟨hne l hl, hc l (mem_removalOrder.mp hl)⟩,
      (hperm.map _).sum_eq, hls, List.map_map, List.map_map]
    refine congrArg _ (congrArg List.sum (List.map_congr_left fun m hm => ?_))
    simp [Json.nodesAt, (of_mem_reached hm).1]

theorem nothing_left_members :
    let v : Json := .arr [.obj [("a", .int 1), ("b", .arr [.null])], .obj [("a", .int 2)],
      .obj [("b", .null), ("a", .int 1)]]
    let r : Json := .arr [.obj [("a", .int 1)], .obj [("a", .int 2)], .obj [("a", .int 1)]]
    let p : Path := [.selector (.members [("a", .int 1)]) "", .key "b" false]
    p.delete .default v = .ok r ∧ (Query.ofPath p).get r = .ok [] ∧
      ∃ xs, (Query.ofPath p).get v = .ok xs ∧ v.nodes = r.nodes + (xs.map Json.nodes).sum := by
  intro v r p
  have hv : v.WellFormed := by
    simp [v, Json.WellFormed, Json.WellFormedMembers, Json.WellFormedItems, Json.int, Members.keys]
  have hr : removals .default v p = .ok [[.index 0, .key "b"], [.index 2, .key "b"]] := by
    decide +kernel
  have h : p.delete .default v = .ok r := by
    rw [delete_eq_removeAll hv (by decide) (by simp [p]) hr (by decide), removalOrder,
      List.mergeSort_of_pairwise (by decide)]
    rfl
  obtain ⟨hnone, hnodes⟩ := nothing_left .default hv (by decide) (by simp [p]) (by decide)
    (by decide) (by simp [p, Segment.isIndex]) h
  exact ⟨h, hnone false, hnodes⟩

end Path

end JsonQuery
