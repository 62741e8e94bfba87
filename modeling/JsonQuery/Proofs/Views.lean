import JsonQuery.Edit.Create
import JsonQuery.Proofs.SliceBounds

namespace JsonQuery

namespace Step

theorem nodup_map_key {ks : List String} : (ks.map key).Nodup ↔ ks.Nodup := by
  simp [List.Nodup, List.pairwise_map]

theorem nodup_map_index {is : List Nat} : (is.map index).Nodup ↔ is.Nodup := by
  simp [List.Nodup, List.pairwise_map]

end Step

namespace Segment

def isSlice : Segment → Bool
  | slice _ => true
  | _       => false

-- Whether the numbers of the segment's slice, if it is one, are signed 64 bit integers.
def fits : Segment → Bool
  | slice s => s.fits
  | _       => true

variable {s : Segment} {c : Json} {t : Step}

-- A segment names children that are there, unless it is a slice that leads out of the array.
theorem child?_isSome_of_mem_steps
    (hs : ∀ sl items, s = .slice sl → c = .arr items → ∀ i ∈ sl.indices items.length, i < items.length)
    (h : t ∈ s.steps c) : (c.child? t).isSome := by
  cases s <;> cases c <;>
    simp only [steps, List.not_mem_nil, Json.steps, Predicate.select] at h
  case key.obj k _ ms =>
    split at h <;> simp_all [Json.child?, Members.contains]
  case index.arr i _ items =>
    simp only [List.mem_map, Option.mem_toList] at h
    obtain ⟨n, hn, e⟩ := h
    subst e
    simpa [Json.child?] using resolveIndex_lt hn
  case children.arr items => exact Json.child?_isSome_of_mem_steps h
  case children.obj ms    => exact Json.child?_isSome_of_mem_steps h
  case elements.arr items => exact Json.child?_isSome_of_mem_steps h
  case slice.arr sl items =>
    obtain ⟨i, hi, e⟩ := List.mem_map.mp h
    subst e
    simpa [Json.child?] using hs sl items rfl rfl i hi
  case selector.arr p _ items =>
    obtain ⟨⟨x, i⟩, hm, e⟩ := List.mem_map.mp h
    subst e
    simp [Json.child?, (List.mem_zipIdx' (List.mem_filter.mp hm).1).1]
  case selector.obj p _ ms =>
    obtain ⟨⟨k, x⟩, hm, e⟩ := List.mem_map.mp h
    subst e
    exact Members.contains_iff_mem_keys.mpr (List.mem_map.mpr ⟨_, (List.mem_filter.mp hm).1, rfl⟩)

-- No child is named twice.
theorem nodup_steps (hc : c.WellFormed)
    (hs : ∀ sl items, s = .slice sl → c = .arr items → (sl.indices items.length).Nodup) :
    (s.steps c).Nodup := by
  cases s
  case children => exact Json.nodup_steps hc
  all_goals cases c <;> simp only [steps, List.nodup_nil, Predicate.select]
  case key.obj k _ ms => split <;> simp
  case index.arr i _ items => cases resolveIndex i items.length <;> simp
  case elements.arr items => exact Json.nodup_steps hc
  case slice.arr sl items => exact Step.nodup_map_index.mpr (hs sl items rfl rfl)
  case selector.arr p _ items =>
    have hi : (items.zipIdx.map (·.2)).Nodup := by simp [List.nodup_range']
    have hn : ((items.zipIdx.filter fun m => p.accepts (.index m.2 items.length) m.1).map
        (·.2)).Nodup := hi.sublist (List.filter_sublist.map _)
    simpa [Function.comp_def] using Step.nodup_map_index.mpr hn
  case selector.obj p _ ms =>
    have hn : ((ms.filter fun m => p.accepts (.name m.1) m.2).map (·.1)).Nodup :=
      hc.keys_nodup.sublist (List.filter_sublist.map _)
    simpa [Function.comp_def] using Step.nodup_map_key.mpr hn

end Segment

-- The number of steps that a location found by a path has. A slice stays at its array.
def Path.height (p : Path) : Nat := p.countP (!·.isSlice)

namespace View

-- A view of the document: its location leads to its node, and only an array is seen in part.
structure Within (v : Json) (u : View) : Prop where
  at?_eq   : v.at? u.location = some u.node
  narrowed : ∀ is, u.origin = some is → ∃ items, u.node = .arr items

-- A view that shows elements only, each of them once.
structure Faithful (u : View) : Prop where
  lt    : ∀ is, u.origin = some is → ∀ i ∈ is, i < u.node.itemsOf.length
  nodup : ∀ is, u.origin = some is → is.Nodup

-- All views that a path leads to.
def expand (u : View) : Path → List View
  | []        => [u]
  | s :: rest => (u.follow s).flatMap (·.expand rest)

-- Whether no slice of the path leads out of an array.
def staysWithin (u : View) : Path → Bool
  | []        => true
  | s :: rest => (u.stray? s).isNone && (u.follow s).all (·.staysWithin rest)

variable {v c : Json} {u w : View} {s : Segment} {t t' : Step} {p q : Path} {sl : Slice}
  {items : List Json} {is : List Nat}

-- Indices that are all there pick as many elements.
theorem getElem?_pick (h : ∀ i ∈ is, i < items.length) (i : Nat) :
    (is.filterMap (items[·]?))[i]? = is[i]?.bind (items[·]?) := by
  induction is generalizing i with
  | nil => simp
  | cons j rest ih =>
    obtain ⟨hj, hr⟩ := List.forall_mem_cons.mp h
    rw [List.filterMap_cons, List.getElem?_eq_getElem hj]
    cases i with
    | zero => simp [hj]
    | succ i => simpa using ih hr i

theorem length_pick (h : ∀ i ∈ is, i < items.length) :
    (is.filterMap (items[·]?)).length = is.length := by
  rw [List.length_filterMap_eq_countP, List.countP_eq_length]
  exact fun i hi => by simpa using h i hi

theorem value_of_origin_eq_none (h : u.origin = none) : u.value = u.node := by
  simp [value, h]

theorem value_of_origin (ho : u.origin = some is) (hn : u.node = .arr items) :
    u.value = .arr (is.filterMap (items[·]?)) := by
  simp [value, ho, hn]

-- A view in part is one of an array.
theorem Within.origin_cases (h : u.Within v) :
    u.origin = none ∨ ∃ is items, u.origin = some is ∧ u.node = .arr items := by
  cases ho : u.origin with
  | none => exact .inl rfl
  | some is =>
    obtain ⟨items, hn⟩ := h.narrowed is ho
    exact .inr ⟨is, items, rfl, hn⟩

theorem Within.origin_eq_none (h : u.Within v) (hn : ∀ items, u.node ≠ .arr items) :
    u.origin = none := by
  cases h.origin_cases
  case inl ho => exact ho
  case inr ho =>
    obtain ⟨_, items, _, he⟩ := ho
    exact absurd he (hn items)

theorem Within.value_eq_of_not_arr (h : u.Within v) (hn : ∀ items, u.node ≠ .arr items) :
    u.value = u.node :=
  value_of_origin_eq_none (h.origin_eq_none hn)

theorem child?_eq_some_iff :
    u.child? t = some w ↔ ∃ c, u.node.child? (u.source t) = some c ∧
      w = ⟨u.location ++ [u.source t], c, none⟩ := by
  simp only [child?, Option.map_eq_some_iff]
  exact exists_congr fun c => and_congr_right fun _ => eq_comm

theorem follow_slice (h : u.node = .arr items) : u.follow (.slice sl) = [u.narrow sl items] := by
  simp [follow, h]

theorem follow_of_not_slice (h : s.isSlice = false) :
    u.follow s = (s.steps u.value).filterMap u.child? := by
  cases s <;> first | rfl | cases h

theorem Within.follow_slice_of_not_arr (h : u.Within v) (hn : ∀ items, u.node ≠ .arr items) :
    u.follow (.slice sl) = [] := by
  have hv := h.value_eq_of_not_arr hn
  cases hc : u.node
  case arr items => exact absurd hc (hn items)
  all_goals simp [follow, hv, hc, Segment.steps]

-- A segment narrows a view, or it leads to children.
theorem Within.mem_follow (h : u.Within v) (hw : w ∈ u.follow s) :
    (∃ sl items, s = .slice sl ∧ u.node = .arr items ∧ w = u.narrow sl items) ∨
      (s.isSlice = false ∧ ∃ t ∈ s.steps u.value, u.child? t = some w) := by
  cases hs : s.isSlice
  case false =>
    rw [follow_of_not_slice hs] at hw
    exact .inr ⟨rfl, List.mem_filterMap.mp hw⟩
  case true =>
    obtain ⟨sl, e⟩ : ∃ sl, s = .slice sl := by cases s <;> simp_all [Segment.isSlice]
    subst e
    by_cases hn : ∃ items, u.node = .arr items
    case pos =>
      obtain ⟨items, hn⟩ := hn
      rw [follow_slice hn] at hw
      exact .inl ⟨sl, items, rfl, hn, List.mem_singleton.mp hw⟩
    case neg =>
      rw [h.follow_slice_of_not_arr fun items hi => hn ⟨items, hi⟩] at hw
      exact absurd hw List.not_mem_nil

theorem Within.child? (h : u.Within v) (hw : u.child? t = some w) : w.Within v := by
  obtain ⟨c, hc, e⟩ := child?_eq_some_iff.mp hw
  subst e
  exact ⟨by simp [Json.at?_snoc, h.at?_eq, hc], by simp⟩

theorem Within.follow (h : u.Within v) (hw : w ∈ u.follow s) : w.Within v := by
  cases h.mem_follow hw
  case inl hs =>
    obtain ⟨sl, items, _, hn, e⟩ := hs
    subst e
    exact ⟨h.at?_eq, fun _ _ => ⟨items, hn⟩⟩
  case inr ht =>
    obtain ⟨_, t, _, hc⟩ := ht
    exact h.child? hc

theorem Within.expand (h : u.Within v) (hw : w ∈ u.expand p) : w.Within v := by
  induction p generalizing u with
  | nil => exact List.mem_singleton.mp hw ▸ h
  | cons s rest ih =>
    obtain ⟨x, hx, hw⟩ := List.mem_flatMap.mp hw
    exact ih (h.follow hx) hw

theorem Within.root (v : Json) : (View.root v).Within v :=
  ⟨rfl, by simp [View.root]⟩

-- A segment takes one step, except for a slice, which takes none.
theorem Within.location_of_follow (h : u.Within v) (hw : w ∈ u.follow s) :
    ∃ l, w.location = u.location ++ l ∧ l.length = Path.height [s] := by
  cases h.mem_follow hw
  case inl hs =>
    obtain ⟨sl, items, e, _, e'⟩ := hs
    subst e e'
    exact ⟨[], by simp [narrow], rfl⟩
  case inr ht =>
    obtain ⟨hs, t, _, hc⟩ := ht
    obtain ⟨c, _, e⟩ := child?_eq_some_iff.mp hc
    subst e
    exact ⟨[u.source t], rfl, by simp [Path.height, hs]⟩

theorem height_cons (s : Segment) (p : Path) :
    Path.height (s :: p) = Path.height [s] + Path.height p := by
  simp only [Path.height, List.countP_cons, List.countP_nil]
  omega

theorem Within.location_of_expand (h : u.Within v) (hw : w ∈ u.expand p) :
    ∃ l, w.location = u.location ++ l ∧ l.length = Path.height p := by
  induction p generalizing u with
  | nil => exact ⟨[], by simp [List.mem_singleton.mp hw], rfl⟩
  | cons s rest ih =>
    obtain ⟨x, hx, hw⟩ := List.mem_flatMap.mp hw
    obtain ⟨l, hl, hn⟩ := h.location_of_follow hx
    obtain ⟨m, hm, hn'⟩ := ih (h.follow hx) hw
    exact ⟨l ++ m, by simp [hm, hl], by rw [height_cons, List.length_append, hn, hn']⟩

theorem stray?_eq_none_iff : u.stray? s = none ↔
    ∀ sl items, s = .slice sl → u.value = .arr items → ∀ i ∈ sl.indices items.length,
      i < items.length := by
  cases s <;> cases hv : u.value <;> simp [stray?, hv]

-- What a faithful view shows is there.
theorem Faithful.getElem? (h : u.Faithful) (ho : u.origin = some is) (hn : u.node = .arr items)
    (i : Nat) : (is.filterMap (items[·]?))[i]? = is[i]?.bind (items[·]?) :=
  getElem?_pick (by simpa [hn, Json.itemsOf] using h.lt is ho) i

theorem Faithful.length_value (h : u.Faithful) (ho : u.origin = some is) (hn : u.node = .arr items) :
    (is.filterMap (items[·]?)).length = is.length :=
  length_pick (by simpa [hn, Json.itemsOf] using h.lt is ho)

theorem Faithful.length_le (h : u.Faithful) (ho : u.origin = some is) (hn : u.node = .arr items) :
    is.length ≤ items.length := by
  have hlt : ∀ i ∈ is, i < items.length := by simpa [hn, Json.itemsOf] using h.lt is ho
  have hsub : is ⊆ List.range items.length := fun i hi => List.mem_range.mpr (hlt i hi)
  simpa using List.Nodup.length_le_of_subset (h.nodup is ho) hsub

theorem Within.wellFormed_value (hv : v.WellFormed) (h : u.Within v) (hf : u.Faithful) :
    u.value.WellFormed := by
  have hn := hv.at? h.at?_eq
  cases h.origin_cases
  case inl ho => exact value_of_origin_eq_none ho ▸ hn
  case inr ho =>
    obtain ⟨is, items, ho, ha⟩ := ho
    rw [ha] at hn
    rw [value_of_origin ho ha]
    refine ⟨?length, Json.wellFormedItems_iff.mpr fun x hx => ?item⟩
    case length =>
      rw [hf.length_value ho ha]
      exact Nat.lt_of_le_of_lt (hf.length_le ho ha) hn.length_lt
    case item =>
      obtain ⟨i, _, hx⟩ := List.mem_filterMap.mp hx
      exact Json.wellFormedItems_iff.mp hn.2 x (List.mem_of_getElem? hx)

-- A child of what is seen is the child of the node that its step corresponds to.
theorem Within.child?_source (h : u.Within v) (hf : u.Faithful) (hc : u.value.child? t = some c) :
    u.node.child? (u.source t) = some c := by
  cases h.origin_cases
  case inl ho => rwa [source_of_origin_eq_none ho, ← value_of_origin_eq_none ho]
  case inr ho =>
    obtain ⟨is, items, ho, hn⟩ := ho
    rw [value_of_origin ho hn] at hc
    cases t with
    | key k => simp [Json.child?] at hc
    | index i =>
      simp only [Json.child?] at hc
      rw [hf.getElem? ho hn] at hc
      obtain ⟨j, hj, hc⟩ := Option.bind_eq_some_iff.mp hc
      simp [source, sourceIndex, ho, hj, hn, Json.child?, hc]

-- Different children that are seen stand at different places of the node.
theorem Within.source_inj (h : u.Within v) (hf : u.Faithful) (ht : (u.value.child? t).isSome)
    (ht' : (u.value.child? t').isSome) (e : u.source t = u.source t') : t = t' := by
  cases h.origin_cases
  case inl ho => rwa [source_of_origin_eq_none ho, source_of_origin_eq_none ho] at e
  case inr ho =>
    obtain ⟨is, items, ho, hn⟩ := ho
    rw [value_of_origin ho hn] at ht ht'
    cases t <;> cases t' <;> simp only [Json.child?, Option.isSome_none, Bool.false_eq_true] at ht ht'
    case index.index i j =>
      simp only [isSome_getElem?, hf.length_value ho hn] at ht ht'
      have e : is[i] = is[j] := by simpa [source, sourceIndex, ho, ht, ht'] using e
      exact congrArg Step.index ((List.getElem_inj (hf.nodup is ho)).mp e)

theorem faithful_of_origin_eq_none (h : u.origin = none) : u.Faithful :=
  ⟨by simp [h], by simp [h]⟩

-- Behind a slice that stays within its array, a faithful view is faithful.
theorem Faithful.narrow (hv : v.WellFormed) (h : u.Within v) (hf : u.Faithful)
    (hn : u.node = .arr items) (hs : u.stray? (.slice sl) = none) (hw : sl.fits = true) :
    (u.narrow sl items).Faithful := by
  have hlen : items.length < 0x8000000000000000 := (hn ▸ hv.at? h.at?_eq).length_lt
  cases h.origin_cases
  case inl ho =>
    have hi := stray?_eq_none_iff.mp hs sl items rfl ((value_of_origin_eq_none ho).trans hn)
    have he : u.sourceIndex = id := funext fun i => by simp [sourceIndex, ho]
    have hnd := Slice.nodup_indices hw hlen hi
    constructor <;> simp_all [View.narrow, Json.itemsOf]
  case inr ho =>
    obtain ⟨is, items', ho, hn'⟩ := ho
    have e : items = items' := by simpa [hn] using hn'
    subst e
    have hi := stray?_eq_none_iff.mp hs sl _ rfl (value_of_origin ho hn)
    rw [hf.length_value ho hn] at hi
    have hlt : ∀ i ∈ is, i < items.length := by simpa [hn, Json.itemsOf] using hf.lt is ho
    have hnd := Slice.nodup_indices hw (Nat.lt_of_le_of_lt (hf.length_le ho hn) hlen) hi
    have he : ∀ i ∈ sl.indices is.length, ∃ h : i < is.length, u.sourceIndex i = is[i] :=
      fun i hm => ⟨hi i hm, by simp [sourceIndex, ho, hi i hm]⟩
    constructor
    case lt =>
      simp only [View.narrow, ho, hn, Json.itemsOf, Option.some.injEq, forall_eq', List.mem_map,
        Option.elim_some]
      rintro _ ⟨i, hm, rfl⟩
      obtain ⟨hi, e⟩ := he i hm
      exact e ▸ hlt _ (List.getElem_mem hi)
    case nodup =>
      simp only [View.narrow, ho, Option.some.injEq, forall_eq', Option.elim_some]
      simp only [List.Nodup, List.pairwise_map]
      refine hnd.imp_of_mem fun {i j} hm hm' hne e => hne ?_
      obtain ⟨hi, ei⟩ := he i hm
      obtain ⟨hj, ej⟩ := he j hm'
      exact (List.getElem_inj (hf.nodup is ho)).mp (ei ▸ ej ▸ e)

theorem Faithful.follow (hv : v.WellFormed) (h : u.Within v) (hf : u.Faithful)
    (hs : u.stray? s = none) (hw : s.fits = true) (hm : w ∈ u.follow s) : w.Faithful := by
  cases h.mem_follow hm
  case inl hc =>
    obtain ⟨sl, items, e, hn, e'⟩ := hc
    subst e e'
    exact hf.narrow hv h hn hs hw
  case inr hc =>
    obtain ⟨_, t, _, hc⟩ := hc
    obtain ⟨c, _, e⟩ := child?_eq_some_iff.mp hc
    subst e
    exact faithful_of_origin_eq_none rfl

theorem staysWithin_cons : u.staysWithin (s :: p) = true ↔
    u.stray? s = none ∧ ∀ w ∈ u.follow s, w.staysWithin p = true := by
  simp [staysWithin, Option.isNone_iff_eq_none]

theorem staysWithin_of_not_slice (h : ∀ s ∈ p, s.isSlice = false) (u : View) :
    u.staysWithin p = true := by
  induction p generalizing u with
  | nil => rfl
  | cons s rest ih =>
    obtain ⟨hs, hr⟩ := List.forall_mem_cons.mp h
    refine staysWithin_cons.mpr ⟨stray?_eq_none_iff.mpr fun sl _ e => ?_, fun w _ => ih hr w⟩
    simp [e, Segment.isSlice] at hs

theorem staysWithin_append : u.staysWithin (p ++ q) = true ↔
    u.staysWithin p = true ∧ ∀ w ∈ u.expand p, w.staysWithin q = true := by
  induction p generalizing u with
  | nil => simp [staysWithin, expand]
  | cons s rest ih =>
    simp only [List.cons_append, staysWithin_cons, ih, expand, List.mem_flatMap]
    constructor
    case mp =>
      rintro ⟨hs, h⟩
      exact ⟨⟨hs, fun w hw => (h w hw).1⟩, fun x ⟨w, hw, hx⟩ => (h w hw).2 x hx⟩
    case mpr =>
      rintro ⟨⟨hs, h⟩, h'⟩
      exact ⟨hs, fun w hw => ⟨h w hw, fun x hx => h' x ⟨w, hw, hx⟩⟩⟩

theorem expand_append (u : View) (p q : Path) : u.expand (p ++ q) = (u.expand p).flatMap (·.expand q) := by
  induction p generalizing u with
  | nil => simp [expand]
  | cons s rest ih => simp [expand, List.flatMap_assoc, ih]

-- A path whose slices stay within their arrays leads to faithful views only.
theorem Faithful.expand (hv : v.WellFormed) (h : u.Within v) (hf : u.Faithful)
    (hs : u.staysWithin p = true) (hw : ∀ s ∈ p, s.fits = true) (hm : w ∈ u.expand p) :
    w.Faithful := by
  induction p generalizing u with
  | nil => exact List.mem_singleton.mp hm ▸ hf
  | cons s rest ih =>
    obtain ⟨hs, hr⟩ := staysWithin_cons.mp hs
    obtain ⟨hw, hwr⟩ := List.forall_mem_cons.mp hw
    obtain ⟨x, hx, hm⟩ := List.mem_flatMap.mp hm
    exact ih (h.follow hx) (hf.follow hv h hs hw hx) (hr x hx) hwr hm

end View

end JsonQuery
