import Mathlib.Data.List.Basic
import JsonQuery.Proofs.Children
import JsonQuery.Proofs.Locations
import JsonQuery.Proofs.Overwrite

namespace JsonQuery

theorem nodup_eraseDups {α : Type} [BEq α] [LawfulBEq α] (xs : List α) : xs.eraseDups.Nodup := by
  match xs with
  | []      => exact List.nodup_nil
  | x :: xs =>
    rw [List.eraseDups_cons, List.nodup_cons]
    exact ⟨by simp [List.mem_eraseDups], nodup_eraseDups _⟩
termination_by xs.length
decreasing_by exact Nat.lt_succ_of_le (List.length_filter_le ..)

namespace Json

variable {f : Option Json → Json} {v : Json} {ls : List Location}

-- An update of the locations of an earlier one adds no keys.
theorem newKeys_overwrite (ms : List (String × Json)) (ls : List Location) (x : Json)
    (h : String → Json → Json) :
    newKeys (Members.mapValues h ms ++ (newKeys ms ls).map fun k => (k, x)) ls = [] := by
  rw [List.eq_nil_iff_forall_not_mem]
  intro k hk
  obtain ⟨hl, hk⟩ := mem_newKeys.mp hk
  rw [Members.keys_append, Members.keys_mapValues, Members.keys_map_pair, List.mem_append,
    mem_newKeys, not_or] at hk
  exact hk.2 ⟨hl, hk.1⟩

-- The second of two updates of the same locations sees what the first one has put there.
theorem overwrite_overwrite (f g : Option Json → Json) (ls : List Location) (v : Json) :
    (v.overwrite f ls).overwrite g ls = v.overwrite (fun old => g (some (f old))) ls := by
  induction v using childInduction generalizing ls with
  | scalar v hs => cases v <;> by_cases hn : [] ∈ ls <;>
    simp_all [overwrite_of_mem, overwrite, isContainer]
  | arr items ih =>
    by_cases hn : [] ∈ ls
    case pos => rw [overwrite_of_mem hn, overwrite_of_mem hn, overwrite_of_mem hn]
    case neg =>
      rw [overwrite_arr hn, overwrite_arr hn, overwrite_arr hn]
      exact congrArg arr (List.ext_getElem (by simp) fun i _ _ => by simp [ih])
  | obj ms ih =>
    by_cases hn : [] ∈ ls
    case pos => rw [overwrite_of_mem hn, overwrite_of_mem hn, overwrite_of_mem hn]
    case neg =>
      rw [overwrite_obj hn, overwrite_obj hn, overwrite_obj hn, newKeys_overwrite]
      simp only [Members.mapValues, List.map_append, List.map_map, List.map_nil, List.append_nil]
      refine congrArg obj (congrArg₂ (· ++ ·) ?old ?new)
      case old => exact List.map_congr_left fun m hm => by simp [ih m hm]
      case new =>
        -- The second update finds the keys that the first one has added.
        refine List.map_congr_left fun k hk => ?_
        have hb := Location.mem_below.mpr (mem_newKeys.mp hk).1
        simp [overwrite_of_mem hb]

theorem wellFormed_overwrite (hv : v.WellFormed) (hf : ∀ old, (f old).WellFormed) :
    (v.overwrite f ls).WellFormed := by
  induction v using childInduction generalizing ls with
  | scalar v hs =>
    by_cases hn : [] ∈ ls
    case pos => exact overwrite_of_mem hn ▸ hf _
    case neg => cases v <;> simp_all [overwrite, isContainer]
  | arr items ih =>
    by_cases hn : [] ∈ ls
    case pos => exact overwrite_of_mem hn ▸ hf _
    case neg =>
      rw [overwrite_arr hn]
      refine ⟨by simpa using hv.length_lt, wellFormedItems_iff.mpr fun x hx => ?_⟩
      obtain ⟨i, hi, rfl⟩ := List.mem_mapIdx.mp hx
      have hmem := List.getElem_mem hi
      exact ih _ hmem (wellFormedItems_iff.mp hv.2 _ hmem)
  | obj ms ih =>
    by_cases hn : [] ∈ ls
    case pos => exact overwrite_of_mem hn ▸ hf _
    case neg =>
      rw [overwrite_obj hn]
      refine ⟨?keys, wellFormedMembers_iff.mpr fun m hm => ?_⟩
      case keys =>
        rw [Members.keys_append, Members.keys_mapValues, Members.keys_map_pair]
        refine List.nodup_append.mpr ⟨hv.keys_nodup, nodup_eraseDups _, fun a ha b hb e => ?_⟩
        exact (mem_newKeys.mp hb).2 (e ▸ ha)
      case _ =>
        cases List.mem_append.mp hm
        case inl hm =>
          obtain ⟨n, hn, rfl⟩ := List.mem_map.mp hm
          exact ih n hn (wellFormedMembers_iff.mp hv.2 n hn)
        case inr hm =>
          obtain ⟨k, _, rfl⟩ := List.mem_map.mp hm
          exact hf none

-- Where no key is new, all children stay in their places.
theorem steps_overwrite_of_child? (h : [] ∉ ls) (hc : ∀ s, [s] ∈ ls → (v.child? s).isSome) :
    (v.overwrite f ls).steps = v.steps := by
  obtain ⟨new, hs, hnew⟩ := steps_overwrite (f := f) (v := v) h
  have hnil : new = [] := List.eq_nil_iff_forall_not_mem.mpr fun s hm => by
    obtain ⟨hl, hn⟩ := hnew s hm
    simpa [hn] using hc s hl
  rw [hs, hnil, List.append_nil]

theorem child?_overwrite_of_long (h : ∀ l ∈ ls, 2 ≤ l.length) (s : Step) :
    (v.overwrite f ls).child? s = (v.child? s).map (·.overwrite f (Location.below s ls)) := by
  have hn : [] ∉ ls := fun hn => by simpa using h [] hn
  have hs : [s] ∉ ls := fun hs => by simpa using h [s] hs
  cases hc : v.child? s with
  | none   => exact child?_overwrite_eq_none hn hc hs
  | some c => exact child?_overwrite hn hc

end Json

namespace View

variable {f : Option Json → Json} {v : Json} {ls : List Location} {u w : View} {s : Segment}
  {p : Path} {items : List Json}

-- The same view of the document with new values at some locations.
def overwritten (f : Option Json → Json) (ls : List Location) (u : View) : View :=
  { u with node := u.node.overwrite f (Location.beneath u.location ls) }

-- Whether the locations lie deeper than what a path leads to from the view on.
def Above (ls : List Location) (p : Path) (u : View) : Prop :=
  ∀ l ∈ ls, u.location.length + Path.height p < l.length

namespace Above

theorem nil (h : u.Above ls p) : u.Above ls [] := fun l hl =>
  Nat.lt_of_le_of_lt (Nat.le_add_right ..) (h l hl)

theorem head (h : u.Above ls (s :: p)) : u.Above ls [s] := fun l hl => by
  have := h l hl
  rw [height_cons] at this
  omega

theorem follow (hu : u.Within v) (h : u.Above ls (s :: p)) (hw : w ∈ u.follow s) :
    w.Above ls p := fun l hl => by
  obtain ⟨m, hm, hn⟩ := hu.location_of_follow hw
  have := h l hl
  rw [height_cons] at this
  rw [hm, List.length_append, hn]
  omega

theorem not_mem_beneath (h : u.Above ls []) : [] ∉ Location.beneath u.location ls := fun hn => by
  have := h _ (Location.mem_beneath.mp hn)
  simp [Path.height] at this

end Above

theorem node_overwritten_arr (hl : u.Above ls [])
    (hn : u.node = .arr items) : ∃ items', (u.overwritten f ls).node = .arr items' ∧
      items'.length = items.length :=
  ⟨_, by rw [overwritten, hn, Json.overwrite_arr (hl.not_mem_beneath)], by simp⟩

theorem Within.overwritten (h : u.Within v) (hl : u.Above ls []) :
    (u.overwritten f ls).Within (v.overwrite f ls) where
  at?_eq := Json.at?_overwrite h.at?_eq fun l hm hp =>
    absurd hp.length_le (Nat.not_le.mpr (hl l hm))
  narrowed is ho := by
    obtain ⟨items, hn⟩ := h.narrowed is ho
    obtain ⟨items', hn', _⟩ := node_overwritten_arr (f := f) hl hn
    exact ⟨items', hn'⟩

theorem length_pick_congr {is : List Nat} {xs ys : List Json} (h : xs.length = ys.length) :
    (is.filterMap (xs[·]?)).length = (is.filterMap (ys[·]?)).length := by
  rw [List.length_filterMap_eq_countP, List.length_filterMap_eq_countP]
  exact List.countP_congr fun i _ => by simp [h]

-- What is seen has the same shape, unless a new key comes to it.
theorem Within.value_overwritten (h : u.Within v) (hl : u.Above ls []) :
    (u.overwritten f ls).value.kind = u.value.kind ∧
      ((∀ t, [t] ∈ Location.beneath u.location ls → (u.node.child? t).isSome) →
        (u.overwritten f ls).value.steps = u.value.steps) := by
  have hn := hl.not_mem_beneath
  cases h.origin_cases
  case inl ho =>
    rw [value_of_origin_eq_none ho, value_of_origin_eq_none (u := u.overwritten f ls) ho]
    exact ⟨Json.kind_overwrite hn, Json.steps_overwrite_of_child? hn⟩
  case inr ho =>
    obtain ⟨is, items, ho, ha⟩ := ho
    obtain ⟨items', ha', hlen⟩ := node_overwritten_arr (f := f) hl ha
    rw [value_of_origin ho ha, value_of_origin (u := u.overwritten f ls) ho ha']
    exact ⟨rfl, fun _ => by rw [Json.steps, Json.steps, length_pick_congr hlen]⟩

-- A segment leads on to the same views, as long as they are above the new values.
theorem child?_overwritten (hl : ∀ l ∈ ls, u.location.length + 2 ≤ l.length) (t : Step) :
    (u.overwritten f ls).child? t = (u.child? t).map (·.overwritten f ls) := by
  have hb : ∀ l ∈ Location.beneath u.location ls, 2 ≤ l.length := fun l hm => by
    have := hl _ (Location.mem_beneath.mp hm)
    rw [List.length_append] at this
    omega
  have hsource : (u.overwritten f ls).source t = u.source t := rfl
  rw [child?, child?, hsource, overwritten, Json.child?_overwrite_of_long hb]
  cases u.node.child? (u.source t) <;> simp [overwritten, Location.beneath_snoc]

theorem Within.follow_overwritten (h : u.Within v) (hs : s.isSelector = false)
    (hl : u.Above ls [s]) : (u.overwritten f ls).follow s = (u.follow s).map (·.overwritten f ls) := by
  cases hsl : s.isSlice
  case true =>
    cases s <;> simp only [Segment.isSlice, Bool.false_eq_true] at hsl
    case slice sl =>
      by_cases ha : ∃ items, u.node = .arr items
      case pos =>
        obtain ⟨items, ha⟩ := ha
        obtain ⟨items', ha', hlen⟩ := node_overwritten_arr (f := f) hl.nil ha
        rw [follow_slice ha, follow_slice ha', List.map_singleton, narrow, narrow, hlen]
        rfl
      case neg =>
        have ha : ∀ items, u.node ≠ .arr items := fun items e => ha ⟨items, e⟩
        have hkind : (u.overwritten f ls).node.kind = u.node.kind :=
          Json.kind_overwrite hl.nil.not_mem_beneath
        have ha' : ∀ items, (u.overwritten f ls).node ≠ .arr items := fun items e => by
          rw [e] at hkind
          cases hn : u.node <;> simp [hn, Json.kind] at hkind
          exact ha _ hn
        rw [h.follow_slice_of_not_arr ha, (h.overwritten hl.nil).follow_slice_of_not_arr ha']
        rfl
  case false =>
    have hl2 : ∀ l ∈ ls, u.location.length + 2 ≤ l.length := fun l hm => by
      have := hl l hm
      simp only [Path.height, List.countP_singleton, hsl, Bool.not_false, if_true] at this
      omega
    obtain ⟨hk, hst⟩ := h.value_overwritten (f := f) hl.nil
    have hst := hst fun t ht => by
      have := hl2 _ (Location.mem_beneath.mp ht)
      simp at this
    rw [follow_of_not_slice hsl, follow_of_not_slice hsl, Segment.steps_congr hs hk hst,
      List.map_filterMap]
    exact congrArg (List.filterMap · _) (funext fun t => child?_overwritten hl2 t)

theorem Within.expand_overwritten (h : u.Within v) (hs : ∀ s ∈ p, s.isSelector = false)
    (hl : u.Above ls p) : (u.overwritten f ls).expand p = (u.expand p).map (·.overwritten f ls) := by
  induction p generalizing u with
  | nil => rfl
  | cons s p ih =>
    obtain ⟨hs, hsp⟩ := List.forall_mem_cons.mp hs
    rw [View.expand, View.expand, h.follow_overwritten hs hl.head, List.flatMap_map,
      List.map_flatMap]
    exact List.flatMap_congr fun w hw => ih (h.follow hw) hsp (hl.follow h hw)

-- Slices lead out of the same arrays, since these are as long as before.
theorem Within.value_arr_overwritten (h : u.Within v) (hl : u.Above ls [])
    (hv : u.value = .arr items) :
    ∃ items', (u.overwritten f ls).value = .arr items' ∧ items'.length = items.length := by
  cases h.origin_cases
  case inl ho =>
    rw [value_of_origin_eq_none ho] at hv
    rw [value_of_origin_eq_none (u := u.overwritten f ls) ho]
    exact node_overwritten_arr hl hv
  case inr ho =>
    obtain ⟨is, shown, ho, ha⟩ := ho
    obtain ⟨shown', ha', hlen⟩ := node_overwritten_arr (f := f) hl ha
    cases (value_of_origin ho ha).symm.trans hv
    exact ⟨_, value_of_origin (u := u.overwritten f ls) ho ha', length_pick_congr hlen⟩

theorem Within.stray?_overwritten (h : u.Within v) (hl : u.Above ls []) (s : Segment) :
    (u.overwritten f ls).stray? s = u.stray? s := by
  have hk := (h.value_overwritten (f := f) hl).1
  cases hv : u.value
  case arr items =>
    obtain ⟨items', hv', hlen⟩ := h.value_arr_overwritten (f := f) hl hv
    cases s <;> simp only [stray?, hv, hv', hlen]
  all_goals
    cases hv' : (u.overwritten f ls).value <;> simp only [hv, hv', Json.kind, reduceCtorEq] at hk
    simp only [stray?, hv, hv']

theorem Within.staysWithin_overwritten (h : u.Within v) (hs : ∀ s ∈ p, s.isSelector = false)
    (hl : u.Above ls p) : (u.overwritten f ls).staysWithin p = u.staysWithin p := by
  induction p generalizing u with
  | nil => rfl
  | cons s p ih =>
    obtain ⟨hs, hsp⟩ := List.forall_mem_cons.mp hs
    rw [staysWithin, staysWithin, h.follow_overwritten hs hl.head, List.all_map,
      h.stray?_overwritten hl.nil]
    refine congrArg _ (Bool.eq_iff_iff.mpr ?_)
    simp only [List.all_eq_true, Function.comp_apply]
    exact forall₂_congr fun w hw => by rw [ih (h.follow hw) hsp (hl.follow h hw)]

theorem locations_key (u : View) (name : String) (q : Bool) : u.locations (.key name q) true =
    if u.value.kind = .object then [u.location ++ [.key name]] else [] := by
  cases hv : u.value <;>
    simp only [locations, Segment.steps, Segment.newStep?, Json.kind, hv, reduceCtorEq, if_false,
      if_true]
  case obj ms => cases Members.contains ms name <;> rfl
  all_goals rfl

theorem locations_of_newStep?_eq_none (h : s.newStep? u.value = none) (absent : Bool) :
    u.locations s absent = u.locations s false := by
  cases hs : s.steps u.value <;> simp [locations, h, hs]

theorem locations_sublist (u : View) (s : Segment) :
    (u.locations s false).Sublist (u.locations s true) := by
  cases hs : s.steps u.value <;> simp [locations, hs]

-- Where all locations exist, none of them is that of a new key.
theorem Within.locations_of_exist (h : u.Within v)
    (hc : ∀ l ∈ u.locations s true, (v.at? l).isSome) :
    u.locations s true = u.locations s false := by
  by_cases hnew : s.newStep? u.value = none
  case pos => exact locations_of_newStep?_eq_none hnew true
  case neg =>
    cases s <;> cases hv : u.value <;>
      simp only [hv, Segment.newStep?, not_true_eq_false] at hnew
    case key.obj name q ms =>
      rw [locations_key, hv] at hc
      have hname := hc _ List.mem_cons_self
      rw [Json.at?_snoc, h.at?_eq, h.node_of_value_obj hv] at hname
      have hname : Members.contains ms name = true := hname
      simp [locations, Segment.steps, hv, hname]

theorem newStep?_congr {v w : Json} (h : v.kind = w.kind) : s.newStep? v = s.newStep? w := by
  cases v <;> cases w <;> simp only [Json.kind, reduceCtorEq] at h <;> cases s <;> rfl

-- The last segment leads to the same locations. A key is one whether it is new or not, and other
-- segments lead only to what is there.
theorem Within.locations_overwritten (h : u.Within v) (hs : s.isSelector = false)
    (hl : ∀ l ∈ ls, l.length = u.location.length + 1)
    (hc : (∃ name q, s = .key name q) ∨ ∀ l ∈ ls, (v.at? l).isSome) :
    (u.overwritten f ls).locations s true = u.locations s true := by
  have habove : u.Above ls [] := fun l hm => by
    rw [hl l hm]
    exact Nat.lt_succ_self _
  obtain ⟨hk, hst⟩ := h.value_overwritten (f := f) habove
  rcases hc with ⟨name, q, rfl⟩ | hc
  case inl => rw [locations_key, locations_key, hk]; rfl
  case inr =>
    have hst := hst fun t ht => by
      simpa [Json.at?_snoc, h.at?_eq] using hc _ (Location.mem_beneath.mp ht)
    rw [locations, locations, Segment.steps_congr hs hk hst, newStep?_congr hk]
    rfl

end View

end JsonQuery
