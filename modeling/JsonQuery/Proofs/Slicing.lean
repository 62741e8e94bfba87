import JsonQuery.Proofs.Agreement
import JsonQuery.Proofs.NothingLeft
import JsonQuery.Proofs.Overwritten
import JsonQuery.Proofs.Progression

namespace JsonQuery

namespace Slice

variable {α β : Type} {s : Slice} {len : Nat}

-- What comes in the order of an array, in the order in which the slice walks it, and back.
def turned (s : Slice) (xs : List α) : List α := if s.stride < 0 then xs.reverse else xs

theorem turned_perm (s : Slice) (xs : List α) : (s.turned xs).Perm xs := by
  unfold turned
  split
  case isTrue  => exact List.reverse_perm xs
  case isFalse => exact .refl xs

theorem turned_turned (s : Slice) (xs : List α) : s.turned (s.turned xs) = xs := by
  unfold turned
  split <;> simp

theorem map_turned (s : Slice) (f : α → β) (xs : List α) :
    (s.turned xs).map f = s.turned (xs.map f) := by
  unfold turned
  split <;> simp

theorem filterMap_turned (s : Slice) (f : α → Option β) (xs : List α) :
    (s.turned xs).filterMap f = s.turned (xs.filterMap f) := by
  unfold turned
  split <;> simp

theorem Exact.turned_indices (h : s.Exact len) : (s.turned (s.indices len)).Pairwise (· < ·) := by
  unfold turned
  split
  case isTrue hs => exact List.pairwise_reverse.mpr (h.down hs)
  case isFalse hs =>
    rcases Int.lt_or_eq_of_le (Int.not_lt.mp hs) with hs | hs
    case inl => exact h.up hs
    case inr => simp [h.none hs.symm]

-- The elements that are tested one by one are those that the walk comes to.
theorem Exact.filter_contains (h : s.Exact len) :
    (List.range len).filter (s.contains len) = s.turned (s.indices len) := by
  have hrange : ((List.range len).filter (s.contains len)).Pairwise (· < ·) :=
    List.pairwise_lt_range.filter _
  have hturned := h.turned_indices
  refine List.Perm.eq_of_pairwise (fun i j _ _ h h' => absurd h (Nat.lt_asymm h')) hrange hturned ?_
  refine (List.perm_ext_iff_of_nodup (hrange.imp Nat.ne_of_lt) (hturned.imp Nat.ne_of_lt)).mpr ?_
  intro i
  rw [(s.turned_perm _).mem_iff, List.mem_filter, List.mem_range, Slice.contains,
    List.contains_iff_mem]
  exact and_iff_right_of_imp (h.lt i)

end Slice

-- Only the elements of an array stand at places that a slice can have.
theorem Segment.steps_of_not_arr {c : Json} (hc : ∀ items, c ≠ .arr items) (s : Slice)
    (text : String) : (slice s).steps c = [] ∧ (selector (.slice s) text).steps c = [] := by
  cases c
  case arr items => exact absurd rfl (hc items)
  all_goals simp [steps, Predicate.select, Predicate.accepts]

theorem Predicate.select_slice (s : Slice) (items : List Json) :
    (Predicate.slice s).select (.arr items) =
      ((List.range items.length).filter (s.contains items.length)).map .index := by
  have hi : items.zipIdx.map (·.2) = List.range items.length := by
    rw [List.zipIdx_map_snd, List.range_eq_range']
  rw [← hi, List.filter_map, List.map_map]
  rfl

namespace View

variable {u w : View} {v : Json} {s : Slice} {items shown : List Json} {q : Bool} {text : String}

theorem expand_pair (u : View) (a b : Segment) :
    u.expand [a, b] = (u.follow a).flatMap (·.follow b) := by
  simp [expand]

theorem follow_of_not_arr {a : Segment} (hn : ∀ items, u.node ≠ .arr items) :
    u.follow a = (a.steps u.value).filterMap u.child? := by
  unfold follow
  split
  case _ items hi => exact absurd hi (hn items)
  case _ => rfl

-- An element behind a slice is the element at the index that the slice has for it.
theorem child?_narrow {i k : Nat}
    (hi : (s.indices (u.origin.elim items.length List.length))[k]? = some i) :
    (u.narrow s items).child? (.index k) = u.child? (.index i) := by
  have hsource : (u.narrow s items).source (.index k) = u.source (.index i) := by
    simp [source, sourceIndex, narrow, hi]
  rw [child?, child?, hsource]
  rfl

theorem follow_elements_narrow (h : u.Bounded) (hn : u.node = .arr items)
    (hv : u.value = .arr shown) (hs : u.stray? (.slice s) = none) :
    (u.narrow s items).follow (.elements q) =
      (s.indices shown.length).filterMap fun i => u.child? (.index i) := by
  have hlen := h.length_value hn hv
  obtain ⟨part, hpart⟩ := (value_eq_arr_iff (h.narrow hn hs)).mpr ⟨items, hn⟩
  have hcount := (h.narrow hn hs).length_value hn hpart
  have hcount : part.length = (s.indices shown.length).length := by
    simp [← hcount, narrow, hlen]
  have hsteps : (Segment.elements q).steps (u.narrow s items).value =
      (List.range (s.indices shown.length).length).map .index := by
    rw [hpart, ← hcount]
    rfl
  have hchildren : (List.range (s.indices shown.length).length).map
      ((u.narrow s items).child? ∘ .index) =
        (s.indices shown.length).map fun i => u.child? (.index i) := by
    refine List.ext_getElem (by simp) fun k hk _ => ?_
    have hk : k < (s.indices shown.length).length := by simpa using hk
    have hi : (s.indices (u.origin.elim items.length List.length))[k]? =
        some (s.indices shown.length)[k] := by
      rw [hlen, List.getElem?_eq_getElem hk]
    simpa using child?_narrow hi
  have hfound := congrArg (List.filterMap id) hchildren
  rw [List.filterMap_map, List.filterMap_map] at hfound
  rw [follow_of_not_slice rfl, hsteps, List.filterMap_map]
  exact hfound

theorem follow_selector_slice (hv : u.value = .arr shown) :
    u.follow (.selector (.slice s) text) =
      ((List.range shown.length).filter (s.contains shown.length)).filterMap fun i =>
        u.child? (.index i) := by
  rw [follow_of_not_slice rfl, Segment.steps, hv, Predicate.select_slice, List.filterMap_map]
  rfl

-- A selector that tests the places of the elements leads to the elements that a slice cuts out.
theorem follow_selector_eq (h : u.Bounded)
    (he : ∀ shown, u.value = .arr shown → s.Exact shown.length) :
    u.follow (.selector (.slice s) text) = s.turned (u.expand [.slice s, .elements q]) := by
  rw [expand_pair]
  by_cases ha : ∃ items, u.node = .arr items
  case pos =>
    obtain ⟨items, hn⟩ := ha
    obtain ⟨shown, hv⟩ := (value_eq_arr_iff h).mpr ⟨items, hn⟩
    have he := he shown hv
    have hs : u.stray? (.slice s) = none := stray?_eq_none_iff.mpr fun sl shown' e hv' => by
      cases e
      cases hv.symm.trans hv'
      exact he.lt
    rw [follow_selector_slice hv, he.filter_contains, follow_slice hn, List.flatMap_singleton,
      follow_elements_narrow h hn hv hs, Slice.filterMap_turned]
  case neg =>
    have hv : ∀ shown, u.value ≠ .arr shown := fun shown hv =>
      ha ((value_eq_arr_iff h).mp ⟨shown, hv⟩)
    obtain ⟨hslice, hselector⟩ := Segment.steps_of_not_arr hv s text
    rw [follow_of_not_slice rfl, follow_of_not_arr fun items hn => ha ⟨items, hn⟩, hslice,
      hselector]
    simp [Slice.turned]

-- The same from the root, the other way around.
theorem expand_slice_elements (he : ∀ items, v = .arr items → s.Exact items.length) :
    (root v).expand [.slice s, .elements q] =
      s.turned ((root v).expand [.selector (.slice s) text]) := by
  rw [expand_singleton, follow_selector_eq (u := .root v) (q := q)
    (bounded_of_origin_eq_none rfl) he, Slice.turned_turned]

theorem staysWithin_slice_elements (he : ∀ items, v = .arr items → s.Exact items.length) :
    (root v).staysWithin [.slice s, .elements q] = true := by
  refine staysWithin_cons.mpr ⟨stray?_eq_none_iff.mpr fun sl items e h => ?inside, ?after⟩
  case inside =>
    cases e
    exact (he items h).lt
  case after => exact fun w _ => staysWithin_of_not_slice (by simp [Segment.isSlice]) w

end View

namespace Path

variable {o : Options} {creating : Bool} {op : Operation} {v x : Json} {p q : Path}
  {ls ms : List Location} {limit : Nat} {s : Slice} {text : String} {b : Bool}

-- The order in which locations are removed depends on the locations alone.
theorem removalOrder_congr (h : ∀ l, l ∈ ls ↔ l ∈ ms) : removalOrder ls = removalOrder ms := by
  refine List.Perm.eq_of_pairwise (fun l m _ _ hl hm => ?_) (pairwise_removalOrder ls)
    (pairwise_removalOrder ms) ?_
  case refine_1 =>
    have hswap : m.compare l = (l.compare m).swap := Std.OrientedCmp.eq_swap
    rw [hswap, hm] at hl
    cases hl
  case refine_2 =>
    refine (List.perm_ext_iff_of_nodup (nodup_removalOrder ls) (nodup_removalOrder ms)).mpr ?_
    exact fun l => by rw [mem_removalOrder, mem_removalOrder, h]

theorem delete_congr (ha : ∀ s ∈ p, s.isAddressable = true) (hb : ∀ s ∈ q, s.isAddressable = true)
    (hp : p ≠ []) (hq : q ≠ []) (hl : removals o v p = .ok ls) (hm : removals o v q = .ok ms)
    (h : ls.Perm ms) : p.delete o v = q.delete o v := by
  rw [delete_of_removals ha hp hl, delete_of_removals hb hq hm,
    removalOrder_congr fun _ => h.mem_iff]

theorem write_of_no_targets (ha : ∀ s ∈ p, s.isAddressable = true) (hc : p.isConcrete = false)
    (ht : targets o.maxDepth true v p = .ok []) : p.write o creating op v x = .ok v := by
  simp [write, ensureAddressable_eq_ok ha, ht, hc, bind, Except.bind, pure, Except.pure]

-- Two paths to the same locations, in whatever order, are written alike.
theorem write_congr (hv : v.WellFormed) (ha : ∀ s ∈ p, s.isAddressable = true)
    (hb : ∀ s ∈ q, s.isAddressable = true) (hc : p.isConcrete = false) (hd : q.isConcrete = false)
    (hw : ∀ s ∈ p, s.fits = true) (hs : (View.root v).staysWithin p = true)
    (hl : targets o.maxDepth true v p = .ok ls) (hm : targets o.maxDepth true v q = .ok ms)
    (h : ls.Perm ms) : p.write o creating op v x = q.write o creating op v x := by
  by_cases hne : ls = []
  case pos =>
    subst hne
    rw [write_of_no_targets ha hc hl, write_of_no_targets hb hd (h.nil_eq ▸ hm)]
  case neg =>
    have hne' : ms ≠ [] := fun e => hne (by simpa [e] using h)
    rw [write_of_targets ha hl hne, write_of_targets hb hm hne']
    rcases op.makes_or_error x with ⟨f, hf⟩ | he
    case inl =>
      have hh : ∀ l ∈ ls, v.hosts l = true := fun l => hosts_of_staysWithin hv hw hs hl
      rw [applyAll_writeChange hv hf (fun l hl' m hm' => length_eq_of_mem_targets hl hl' hm') hh,
        applyAll_writeChange hv hf (fun l hl' m hm' => length_eq_of_mem_targets hm hl' hm')
          fun l hl' => hh l (h.mem_iff.mpr hl')]
      exact congrArg Except.ok (Json.overwrite_congr hv (fun _ => h.mem_iff)
        fun l hl' m hm' => getLast?_eq_of_hosts hv hw hl hh hl' hm')
    case inr =>
      rw [Operation.mapM_writeChange_eq_error he hne, Operation.mapM_writeChange_eq_error he hne']

-- Only a key leads to a location that is not there.
theorem targets_of_not_key (h : ∀ name b, p.getLast? ≠ some (.key name b)) (absent : Bool) :
    targets limit absent v p = targets limit false v p := by
  simp only [targets]
  split
  case isTrue  => rfl
  case isFalse =>
    cases hl : p.getLast? with
    | none      => rfl
    | some last =>
      refine congrArg Except.ok (List.flatMap_congr fun u _ => ?_)
      refine View.locations_of_newStep?_eq_none ?_ absent
      cases last <;> first | rfl | exact absurd hl (h _ _)

-- What a path that ends in no key, index or slice reads, and where it leads a write or a removal.
theorem reached_of_staysWithin (hv : v.WellFormed) (ha : ∀ s ∈ p, s.isAddressable = true)
    (hw : ∀ s ∈ p, s.fits = true) (hs : (View.root v).staysWithin p = true)
    (hd : p.length ≤ o.maxDepth)
    (hl : ∀ s, p.getLast? = some s → s.isConcrete = false ∧ s.isSlice = false) :
    (p.cursor { o with strict := false, onlyFirst := false } v).all =
        .ok (((View.root v).expand p).map fun w => ⟨w.location, w.value⟩) ∧
      ∀ absent, targets o.maxDepth absent v p =
        .ok (((View.root v).expand p).map (·.location)) := by
  have hkey (name b) : p.getLast? ≠ some (.key name b) := fun h => by cases (hl _ h).1
  have hindex (i) : p.getLast? ≠ some (.index i true) := fun h => by cases (hl _ h).1
  refine ⟨?reads, fun absent => ?targets⟩
  case reads =>
    have hall := all_lenient (o := { o with strict := false, onlyFirst := false }) (v := v)
      rfl rfl ha hd
    rw [hall.1 hs, View.found_root hindex]
  case targets =>
    rw [targets_of_not_key hkey, targets_eq_expand hv hw hs hd,
      spread_eq_self fun s h => (hl s h).2]

-- The elements that a selector by places leads to.
theorem mem_follow_selector {m : Match} (he : ∀ items, v = .arr items → s.Exact items.length) :
    m ∈ ((View.root v).follow (.selector (.slice s) text)).map (fun w => ⟨w.location, w.value⟩) ↔
      ∃ items, ∃ i : Nat, v = .arr items ∧ (i : Int) ∈ s.progression items.length ∧
        m.location = [.index i] ∧ items[i]? = some m.value := by
  by_cases hv : ∃ items, v = .arr items
  case neg =>
    have hsteps := (Segment.steps_of_not_arr (fun items h => hv ⟨items, h⟩) s text).2
    have hnone : (View.root v).follow (.selector (.slice s) text) = [] := by
      rw [View.follow_of_not_slice rfl]
      exact (congrArg _ hsteps).trans List.filterMap_nil
    rw [hnone]
    simpa using fun items h => absurd ⟨items, h⟩ hv
  case pos =>
    obtain ⟨items, rfl⟩ := hv
    have hchild (i : Nat) : (View.root (.arr items)).child? (.index i) =
        items[i]?.map fun x => ⟨[.index i], x, none⟩ :=
      rfl
    rw [View.follow_selector_slice rfl]
    simp only [hchild, List.mem_map, List.mem_filterMap, List.mem_filter, List.mem_range,
      (he items rfl).contains, Option.map_eq_some_iff, Json.arr.injEq]
    constructor
    case mp =>
      rintro ⟨_, ⟨i, ⟨_, hi⟩, x, hx, rfl⟩, rfl⟩
      exact ⟨items, i, rfl, hi, rfl, hx⟩
    case mpr =>
      rintro ⟨_, i, rfl, hi, hl, hx⟩
      have hlt := (List.getElem?_eq_some_iff.mp hx).1
      exact ⟨_, ⟨i, ⟨hlt, hi⟩, _, hx, rfl⟩, by rw [← hl]; rfl⟩

-- What a slice leads to can also be selected element by element. The selector goes through the
-- array and the slice walks it, so a step down turns the order around, and nothing else is
-- different, be it in a read, a write or a removal.
theorem selector_eq_slice (o : Options) (creating : Bool) (op : Operation) (x : Json)
    (text : String) (b : Bool) (hv : v.WellFormed) (hf : s.fits = true)
    (hg : ∀ items, v = .arr items → ¬ s.GoesAround items.length) (hd : 2 ≤ o.maxDepth) :
    let chosen : Path := [.selector (.slice s) text]
    let cut : Path := [.slice s, .elements b]
    let lenient := { o with strict := false, onlyFirst := false }
    (∃ ms, (chosen.cursor lenient v).all = .ok ms ∧ (cut.cursor lenient v).all = .ok (s.turned ms) ∧
      (∀ absent, targets o.maxDepth absent v chosen = .ok (ms.map (·.location)) ∧
        targets o.maxDepth absent v cut = .ok (s.turned (ms.map (·.location)))) ∧
      ∀ m, m ∈ ms ↔ ∃ items, ∃ i : Nat, v = .arr items ∧ (i : Int) ∈ s.progression items.length ∧
        m.location = [.index i] ∧ items[i]? = some m.value) ∧
    chosen.delete o v = cut.delete o v ∧
    chosen.write o creating op v x = cut.write o creating op v x := by
  intro chosen cut lenient
  have hexact (items) (h : v = .arr items) : s.Exact items.length :=
    Slice.exact_of_not_goesAround hf (h ▸ hv).length_lt (hg items h)
  have hcut : (View.root v).expand cut = s.turned ((View.root v).expand chosen) :=
    View.expand_slice_elements hexact
  have hschosen : (View.root v).staysWithin chosen = true :=
    View.staysWithin_of_not_slice (by simp [chosen, Segment.isSlice]) _
  have hscut : (View.root v).staysWithin cut = true := View.staysWithin_slice_elements hexact
  have hachosen : ∀ s ∈ chosen, s.isAddressable = true := by simp [chosen, Segment.isAddressable]
  have hacut : ∀ s ∈ cut, s.isAddressable = true := by simp [cut, Segment.isAddressable]
  have hfchosen : ∀ s ∈ chosen, s.fits = true := by simp [chosen, Segment.fits]
  obtain ⟨hreads, htargets⟩ := reached_of_staysWithin (o := o) hv hachosen hfchosen hschosen
    (Nat.le_of_lt hd) (by simp [chosen, Segment.isConcrete, Segment.isSlice])
  obtain ⟨hreads', htargets'⟩ := reached_of_staysWithin (o := o) hv hacut
    (by simp [cut, Segment.fits, hf]) hscut hd (by simp [cut, Segment.isConcrete, Segment.isSlice])
  rw [hcut] at hreads' htargets'
  simp only [Slice.map_turned] at hreads' htargets'
  have hperm := (s.turned_perm (((View.root v).expand chosen).map (·.location))).symm
  refine ⟨⟨_, hreads, hreads', fun absent => ?targets, fun m => ?members⟩, ?delete, ?write⟩
  case targets =>
    rw [List.map_map]
    exact ⟨htargets absent, htargets' absent⟩
  case members =>
    rw [View.expand_singleton]
    exact mem_follow_selector hexact
  case delete =>
    exact delete_congr hachosen hacut (List.cons_ne_nil _ _) (List.cons_ne_nil _ _)
      (htargets false) (htargets' false) hperm
  case write =>
    exact write_congr hv hachosen hacut rfl rfl hfchosen hschosen (htargets true) (htargets' true)
      hperm

-- Every second element from the last one down. The selector comes to the lower one first.
theorem selector_eq_slice_down :
    let v : Json := .arr [.int 10, .int 20, .int 30, .int 40]
    let s : Slice := ⟨some (-1), none, some (-2)⟩
    let chosen : Path := [.selector (.slice s) "-1::-2"]
    let cut : Path := [.slice s, .elements false]
    let ms : List Match := [⟨[.index 1], .int 20⟩, ⟨[.index 3], .int 40⟩]
    (chosen.cursor .default v).all = .ok ms ∧ (cut.cursor .default v).all = .ok ms.reverse ∧
    chosen.delete .default v = cut.delete .default v ∧
    cut.write .default true .set v .null = .ok (.arr [.int 10, .null, .int 30, .null]) := by
  intro v s chosen cut ms
  have hv : v.WellFormed := by
    simp [v, Json.WellFormed, Json.WellFormedItems, Json.int]
  have hg : ∀ items, v = .arr items → ¬ s.GoesAround items.length := by
    intro items h
    rw [← Json.arr.inj h]
    decide
  obtain ⟨⟨ms', hchosen, hcut, _, _⟩, hdelete, hwrite⟩ :=
    selector_eq_slice .default true .set .null "-1::-2" false hv rfl hg (by decide)
  have hread : (chosen.cursor .default v).all = .ok ms :=
    (Cursor.all_start _ _ _ _).trans rfl
  cases Except.ok.inj (hchosen.symm.trans hread)
  exact ⟨hread, hcut, hdelete, hwrite.symm.trans rfl⟩

end Path

end JsonQuery
