import JsonQuery.Edit.Target
import JsonQuery.Proofs.Views

namespace JsonQuery

-- A segment names an index of the array, or one that is too large for any array.
theorem Segment.index_of_mem_steps {s : Segment} {items : List Json} {t : Step}
    (hw : s.fits = true) (h : t ∈ s.steps (.arr items)) :
    ∃ i, t = .index i ∧ (i < items.length ∨ 0x8000000000000000 ≤ i) := by
  cases hs : s.isSlice
  case false =>
    have hc := child?_isSome_of_mem_steps (fun sl _ e => by simp [e, isSlice] at hs) h
    cases t with
    | key k   => simp [Json.child?] at hc
    | index i => exact ⟨i, rfl, .inl (by simpa [Json.child?] using hc)⟩
  case true =>
    cases s <;> simp only [isSlice, Bool.false_eq_true] at hs
    case slice sl =>
      obtain ⟨i, hi, e⟩ := List.mem_map.mp h
      exact ⟨i, e.symm, Slice.lt_or_le_of_mem_indices hw hi⟩

namespace Json

variable {v : Json} {l : Location}

-- A location that leads to an index behind the end of an array, and not right behind it.
def Beyond (v : Json) (l : Location) : Prop :=
  ∃ m i items, l = m ++ [.index i] ∧ v.at? m = some (arr items) ∧ items.length < i

end Json

namespace View

variable {v : Json} {u : View} {s : Segment} {absent : Bool} {l : Location}

-- A location is that of a child, or that of a key that the object does not have yet.
theorem mem_locations (h : l ∈ u.locations s absent) :
    (∃ t ∈ s.steps u.value, l = u.location ++ [u.source t]) ∨
      (absent = true ∧ ∃ name q ms, s = .key name q ∧ u.value = .obj ms ∧
        l = u.location ++ [.key name]) := by
  simp only [locations] at h
  obtain ⟨t, ht, e⟩ := List.mem_map.mp h
  split at ht
  case isTrue ha =>
    simp only [Bool.and_eq_true] at ha
    cases s <;> cases hv : u.value <;>
      simp only [hv, Segment.newStep?, Option.toList_none, Option.toList_some, List.not_mem_nil] at ht
    case key.obj name q ms =>
      cases List.mem_singleton.mp ht
      exact .inr ⟨ha.1, name, q, ms, rfl, rfl, e.symm⟩
  case isFalse => exact .inl ⟨t, ht, e.symm⟩

theorem locations_of_not_absent (u : View) (s : Segment) :
    u.locations s false = (s.steps u.value).map fun t => u.location ++ [u.source t] := by
  simp [locations]

-- Only an object shows itself as one.
theorem Within.node_of_value_obj {ms : List (String × Json)} (h : u.Within v)
    (hv : u.value = .obj ms) : u.node = .obj ms := by
  cases h.origin_cases
  case inl ho => rwa [← value_of_origin_eq_none ho]
  case inr ho =>
    obtain ⟨is, items, ho, hn⟩ := ho
    rw [value_of_origin ho hn] at hv
    cases hv

-- The location of a child that is seen exists.
theorem Within.at?_location (h : u.Within v) (hf : u.Faithful) (hs : u.stray? s = none) {t : Step}
    (ht : t ∈ s.steps u.value) :
    ∃ c, u.value.child? t = some c ∧ v.at? (u.location ++ [u.source t]) = some c := by
  have hc := Segment.child?_isSome_of_mem_steps (stray?_eq_none_iff.mp hs) ht
  obtain ⟨c, hc⟩ := Option.isSome_iff_exists.mp hc
  exact ⟨c, hc, by simp [Json.at?_snoc, h.at?_eq, h.child?_source hf hc]⟩

-- Every index of the view is one of its array, or too large for any array.
def Counted (u : View) : Prop :=
  ∀ is, u.origin = some is → ∀ i ∈ is, i < u.node.itemsOf.length ∨ 0x8000000000000000 ≤ i

theorem Counted.sourceIndex {items : List Json} {i : Nat} (h : u.Counted) (hn : u.node = .arr items)
    (hi : i < u.origin.elim items.length List.length ∨ 0x8000000000000000 ≤ i) :
    u.sourceIndex i < items.length ∨ 0x8000000000000000 ≤ u.sourceIndex i := by
  cases ho : u.origin with
  | none => simpa [View.sourceIndex, ho] using hi
  | some is =>
    have hc : ∀ i ∈ is, i < items.length ∨ 0x8000000000000000 ≤ i := by
      simpa [hn, Json.itemsOf] using h is ho
    by_cases hlt : i < is.length
    case pos => simpa [View.sourceIndex, ho, hlt] using hc is[i] (List.getElem_mem hlt)
    case neg =>
      have hi : 0x8000000000000000 ≤ i := by simpa [ho, hlt] using hi
      simpa [View.sourceIndex, ho, hlt] using Or.inr hi

-- An array is seen as an array.
theorem value_of_node_arr {items : List Json} (hn : u.node = .arr items) :
    ∃ shown, u.value = .arr shown ∧ shown.length ≤ u.origin.elim items.length List.length := by
  cases ho : u.origin with
  | none    => exact ⟨items, (value_of_origin_eq_none ho).trans hn, Nat.le_refl _⟩
  | some is => exact ⟨_, value_of_origin ho hn, List.length_filterMap_le ..⟩

theorem Counted.follow {w : View} (h : u.Within v) (hc : u.Counted) (hw : s.fits = true)
    (hm : w ∈ u.follow s) : w.Counted := by
  cases h.mem_follow hm
  case inl hs =>
    obtain ⟨sl, items, e, hn, e'⟩ := hs
    subst e e'
    intro is ho i hi
    simp only [View.narrow, Option.some.injEq] at ho
    subst ho
    obtain ⟨j, hj, e⟩ := List.mem_map.mp hi
    subst e
    simpa [View.narrow, hn, Json.itemsOf] using
      hc.sourceIndex hn (Slice.lt_or_le_of_mem_indices hw hj)
  case inr ht =>
    obtain ⟨_, t, _, hc⟩ := ht
    obtain ⟨c, _, e⟩ := child?_eq_some_iff.mp hc
    subst e
    exact fun is ho => by simp at ho

theorem Counted.expand {w : View} {p : Path} (h : u.Within v) (hc : u.Counted)
    (hw : ∀ s ∈ p, s.fits = true) (hm : w ∈ u.expand p) : w.Counted := by
  induction p generalizing u with
  | nil => exact List.mem_singleton.mp hm ▸ hc
  | cons s rest ih =>
    obtain ⟨hw, hr⟩ := List.forall_mem_cons.mp hw
    obtain ⟨x, hx, hm⟩ := List.mem_flatMap.mp hm
    exact ih (h.follow hx) (hc.follow h hw hx) hr hm

theorem counted_root (v : Json) : (View.root v).Counted :=
  fun is ho => by simp [View.root] at ho

-- The location of a child exists, unless a slice leads far out of the array.
theorem Within.at?_or_beyond (hv : v.WellFormed) (h : u.Within v) (hc : u.Counted)
    (hw : s.fits = true) {t : Step} (ht : t ∈ s.steps u.value) :
    (v.at? (u.location ++ [u.source t])).isSome ∨ v.Beyond (u.location ++ [u.source t]) := by
  cases hn : u.node.child? (u.source t) with
  | some c => exact .inl (by simp [Json.at?_snoc, h.at?_eq, hn])
  | none =>
    by_cases ha : ∃ items, u.node = .arr items
    case neg =>
      have ha : ∀ items, u.node ≠ .arr items := fun items hi => ha ⟨items, hi⟩
      have e := h.value_eq_of_not_arr ha
      have hs := Segment.child?_isSome_of_mem_steps
        (fun _ items _ hi => absurd (e ▸ hi) (ha items)) ht
      rw [source_of_origin_eq_none (h.origin_eq_none ha), ← e] at hn
      simp [hn] at hs
    case pos =>
      obtain ⟨items, ha⟩ := ha
      obtain ⟨shown, hs, hle⟩ := value_of_node_arr ha
      obtain ⟨i, et, hi⟩ := Segment.index_of_mem_steps hw (hs ▸ ht)
      have hlen := (ha ▸ hv.at? h.at?_eq).length_lt
      have hi := hc.sourceIndex ha (hi.imp_left (Nat.lt_of_lt_of_le · hle))
      have hge : items.length ≤ u.sourceIndex i := by
        simpa [et, ha, source, Json.child?] using hn
      exact .inr ⟨u.location, u.sourceIndex i, items, by rw [et]; rfl, ha ▸ h.at?_eq, by omega⟩

end View

namespace Path

variable {v : Json} {p q : Path} {s : Segment} {limit : Nat} {absent : Bool} {ls : List Location}
  {l : Location}

-- The views are the same level by level and branch by branch.
theorem frontier_eq_expand (v : Json) (p : Path) : frontier v p = (View.root v).expand p.dropLast := by
  have (us : List View) (q : Path) :
      q.foldl (fun views s => views.flatMap (·.follow s)) us = us.flatMap (·.expand q) := by
    induction q generalizing us with
    | nil => simp [View.expand]
    | cons s rest ih => simp [View.expand, ih, List.flatMap_assoc]
  simp [frontier, this]

theorem targets_of_length_lt (h : limit < p.length) :
    targets limit absent v p = .error (.tooDeep limit) := by
  simp [targets, h]

theorem targets_nil : targets limit absent v [] = .ok [[]] := by
  simp [targets]

theorem targets_snoc (h : (q ++ [s]).length ≤ limit) : targets limit absent v (q ++ [s]) =
    .ok (((View.root v).expand q).flatMap (·.locations s absent)) := by
  have h := Nat.not_lt.mpr h
  simp only [targets, h, if_false, List.getLast?_concat, frontier_eq_expand, List.dropLast_concat]

theorem length_le_of_targets (h : targets limit absent v p = .ok ls) : p.length ≤ limit := by
  by_cases hd : limit < p.length
  case pos => simp [targets_of_length_lt hd] at h
  case neg => exact Nat.not_lt.mp hd

-- The locations of a path are the root, or they are found at the views that all but its last segment
-- leads to.
theorem mem_targets (h : targets limit absent v p = .ok ls) (hl : l ∈ ls) :
    (p = [] ∧ l = []) ∨
      ∃ q s, p = q ++ [s] ∧ ∃ u ∈ (View.root v).expand q, l ∈ u.locations s absent := by
  have hd := length_le_of_targets h
  cases List.eq_nil_or_concat p
  case inl hp =>
    subst hp
    rw [targets_nil] at h
    cases h
    exact .inl ⟨rfl, List.mem_singleton.mp hl⟩
  case inr hp =>
    obtain ⟨q, s, hp⟩ := hp
    rw [List.concat_eq_append] at hp
    subst hp
    rw [targets_snoc hd] at h
    cases h
    exact .inr ⟨q, s, rfl, List.mem_flatMap.mp hl⟩

end Path

theorem View.length_of_mem_locations {u : View} {s : Segment} {absent : Bool} {l : Location}
    (h : l ∈ u.locations s absent) : l.length = u.location.length + 1 := by
  cases mem_locations h
  case inl h =>
    obtain ⟨t, _, e⟩ := h
    simp [e]
  case inr h =>
    obtain ⟨_, _, _, _, _, _, e⟩ := h
    simp [e]

-- All locations of a path have as many steps.
theorem Path.length_eq_of_mem_targets {v : Json} {p : Path} {limit : Nat} {absent : Bool}
    {ls : List Location} {l m : Location} (h : targets limit absent v p = .ok ls) (hl : l ∈ ls)
    (hm : m ∈ ls) : m.length = l.length := by
  cases mem_targets h hl
  case inl hp =>
    obtain ⟨hp, hl⟩ := hp
    cases mem_targets h hm
    case inl hm => simp [hl, hm.2]
    case inr hm =>
      obtain ⟨q, s, hq, _⟩ := hm
      simp [hp] at hq
  case inr hp =>
    obtain ⟨q, s, hp, u, hu, hl⟩ := hp
    cases mem_targets h hm
    case inl hm => simp [hm.1] at hp
    case inr hm =>
      obtain ⟨q', s', hp', u', hu', hm⟩ := hm
      obtain ⟨e, _⟩ := List.append_inj' (hp.symm.trans hp') rfl
      subst e
      obtain ⟨_, e, hn⟩ := (View.Within.root v).location_of_expand hu
      obtain ⟨_, e', hn'⟩ := (View.Within.root v).location_of_expand hu'
      simp [View.length_of_mem_locations hl, View.length_of_mem_locations hm, e, e', hn, hn']

end JsonQuery
