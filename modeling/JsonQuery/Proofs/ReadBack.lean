import Mathlib.Data.List.Flatten
import JsonQuery.Proofs.Lenient
import JsonQuery.Proofs.Overwritten
import JsonQuery.Proofs.Writes

namespace JsonQuery

namespace Path

variable {o : Options} {creating absent : Bool} {f : Option Json → Json} {v x r : Json} {p q : Path}
  {s : Segment} {ls : List Location} {limit : Nat}

theorem location_length_of_mem_expand {u : View} (hu : u ∈ (View.root v).expand q) :
    u.location.length = height q := by
  obtain ⟨l, hl, hn⟩ := (View.Within.root v).location_of_expand hu
  rw [hl, ← hn]
  rfl

theorem length_of_targets_snoc (ht : targets limit absent v (q ++ [s]) = .ok ls) :
    ∀ l ∈ ls, l.length = height q + 1 := by
  rw [targets_snoc (length_le_of_targets ht)] at ht
  cases ht
  intro l hl
  obtain ⟨u, hu, hl⟩ := List.mem_flatMap.mp hl
  rw [View.length_of_mem_locations hl, location_length_of_mem_expand hu]

theorem above_root (ht : targets limit absent v (q ++ [s]) = .ok ls) :
    (View.root v).Above ls q := fun l hl => by
  rw [length_of_targets_snoc ht l hl]
  exact Nat.lt_succ_of_le (Nat.le_of_eq (Nat.zero_add _))

-- A location of a path that can take a value has one, unless the path ends in a key.
theorem key_or_exist (hv : v.WellFormed) (hw : ∀ t ∈ q ++ [s], t.fits = true)
    (ht : targets limit absent v (q ++ [s]) = .ok ls) (hh : ∀ l ∈ ls, v.hosts l = true) :
    (∃ name b, s = .key name b) ∨ ∀ l ∈ ls, (v.at? l).isSome := by
  by_cases hk : ∃ name b, s = .key name b
  case pos => exact .inl hk
  case neg =>
    refine .inr fun l hl => Option.isSome_iff_ne_none.mpr fun hn => hk ?_
    obtain ⟨hwq, hws⟩ := List.forall_mem_append.mp hw
    have hmem := Except.ok.inj (ht.symm.trans (targets_snoc (length_le_of_targets ht)))
    obtain ⟨u, hu, hlu⟩ := List.mem_flatMap.mp (hmem ▸ hl)
    have hin := View.Within.root v
    obtain ⟨name, b, e, _⟩ := (hin.expand hu).eq_key_of_hosts hv
      ((View.counted_root v).expand hin hwq hu) (hws s (by simp)) hlu (hh l hl) hn
    exact ⟨name, b, e⟩

-- After a write to all locations of a path, the path leads to the same locations.
theorem targets_overwrite (hv : v.WellFormed) (hw : ∀ s ∈ p, s.fits = true)
    (hs : ∀ s ∈ p, s.isSelector = false) (ht : targets limit true v p = .ok ls)
    (hh : ∀ l ∈ ls, v.hosts l = true) : targets limit true (v.overwrite f ls) p = .ok ls := by
  have hd := length_le_of_targets ht
  cases List.eq_nil_or_concat' p
  case inl hp =>
    subst hp
    rw [targets_nil] at ht ⊢
    exact ht
  case inr hp =>
    obtain ⟨q, s, rfl⟩ := hp
    obtain ⟨hsq, hss⟩ := List.forall_mem_append.mp hs
    have hin := View.Within.root v
    have hkey := key_or_exist hv hw ht hh
    have hlen := length_of_targets_snoc ht
    have habove := above_root ht
    rw [targets_snoc hd] at ht ⊢
    rw [← ht]
    have e : View.root (v.overwrite f ls) = (View.root v).overwritten f ls := rfl
    rw [e, hin.expand_overwritten hsq habove, List.flatMap_map]
    refine congrArg Except.ok (List.flatMap_congr fun u hu => ?_)
    exact (hin.expand hu).locations_overwritten (hss s (by simp))
      (fun l hl => by rw [hlen l hl, location_length_of_mem_expand hu]) hkey

theorem staysWithin_overwrite (hs : ∀ s ∈ p, s.isSelector = false)
    (hl : ∀ s, p.getLast? = some s → s.isSlice = false) (ht : targets limit true v p = .ok ls) :
    (View.root (v.overwrite f ls)).staysWithin p = (View.root v).staysWithin p := by
  cases List.eq_nil_or_concat' p
  case inl hp =>
    subst hp
    rfl
  case inr hp =>
    obtain ⟨q, s, rfl⟩ := hp
    obtain ⟨hsq, _⟩ := List.forall_mem_append.mp hs
    have hlast (u : View) : u.staysWithin [s] = true :=
      View.staysWithin_of_not_slice (by simpa using hl s) u
    have e : View.root (v.overwrite f ls) = (View.root v).overwritten f ls := rfl
    rw [Bool.eq_iff_iff, View.staysWithin_append, View.staysWithin_append, e,
      (View.Within.root v).staysWithin_overwritten hsq (above_root ht)]
    simp [hlast]

theorem targets_of_exist (ht : targets limit true v p = .ok ls) (hc : ∀ l ∈ ls, (v.at? l).isSome) :
    targets limit false v p = .ok ls := by
  have hd := length_le_of_targets ht
  cases List.eq_nil_or_concat' p
  case inl hp =>
    subst hp
    rw [targets_nil] at ht ⊢
    exact ht
  case inr hp =>
    obtain ⟨q, s, rfl⟩ := hp
    rw [targets_snoc hd] at ht ⊢
    cases ht
    refine congrArg Except.ok (List.flatMap_congr fun u hu => ?_)
    exact (((View.Within.root v).expand hu).locations_of_exist fun l hl =>
      hc l (List.mem_flatMap.mpr ⟨u, hu, hl⟩)).symm

-- A path that does not end in a slice leads to values that are seen as a whole.
theorem origin_of_mem_expand (hl : ∀ s, p.getLast? = some s → s.isSlice = false) {w : View}
    (hw : w ∈ (View.root v).expand p) : w.origin = none := by
  cases List.eq_nil_or_concat' p
  case inl hp =>
    subst hp
    rw [List.mem_singleton.mp hw]
    rfl
  case inr hp =>
    obtain ⟨q, s, rfl⟩ := hp
    rw [View.expand_append, List.mem_flatMap] at hw
    obtain ⟨u, _, hw⟩ := hw
    rw [View.expand_singleton, View.follow_of_not_slice (hl s (by simp)), List.mem_filterMap] at hw
    obtain ⟨t, _, hc⟩ := hw
    obtain ⟨c, _, rfl⟩ := View.child?_eq_some_iff.mp hc
    rfl

-- Where all locations of a path have the same value, that is what the path leads to.
theorem values_of_targets (hv : v.WellFormed) (hw : ∀ s ∈ p, s.fits = true)
    (hl : ∀ s, p.getLast? = some s → s.isSlice = false) (ht : targets limit true v p = .ok ls)
    (hc : ∀ l ∈ ls, v.at? l = some x) (hs : (View.root v).staysWithin p = true) :
    ((View.root v).expand p).map (·.value) = List.replicate ls.length x := by
  have ht := targets_of_exist ht fun l hl => by simp [hc l hl]
  have he := targets_eq_expand hv hw hs (length_le_of_targets ht)
  rw [spread_eq_self hl] at he
  have hls : ls = ((View.root v).expand p).map (·.location) := Except.ok.inj (ht.symm.trans he)
  rw [List.eq_replicate_iff]
  refine ⟨by simp [hls], fun y hy => ?_⟩
  obtain ⟨w, hmem, rfl⟩ := List.mem_map.mp hy
  have hat := hc w.location (hls ▸ List.mem_map_of_mem hmem)
  rw [((View.Within.root v).expand hmem).at?_eq] at hat
  rw [View.value_of_origin_eq_none (origin_of_mem_expand hl hmem)]
  exact Option.some.inj hat

theorem makes_set (x : Json) : Operation.set.Makes x fun _ => x :=
  fun _ => rfl

-- What a path leads to is among the locations that a write goes to, and new keys come to these.
theorem location_expand_sublist (hv : v.WellFormed) (hw : ∀ s ∈ p, s.fits = true)
    (hl : ∀ s, p.getLast? = some s → s.isSlice = false) (ht : targets limit true v p = .ok ls)
    (hs : (View.root v).staysWithin p = true) :
    (((View.root v).expand p).map (·.location)).Sublist ls := by
  have hd := length_le_of_targets ht
  have he := targets_eq_expand hv hw hs hd
  rw [spread_eq_self hl] at he
  cases List.eq_nil_or_concat' p
  case inl hp =>
    subst hp
    cases targets_nil.symm.trans ht
    exact List.Sublist.refl _
  case inr hp =>
    obtain ⟨q, s, rfl⟩ := hp
    rw [targets_snoc hd] at he ht
    rw [← Except.ok.inj he, ← Except.ok.inj ht]
    exact List.Sublist.flatMap_right _ fun u _ => u.locations_sublist s

-- A write that succeeds goes to no location that can take no value.
theorem hosts_of_write (hv : v.WellFormed) (ha : ∀ s ∈ p, s.isAddressable = true)
    (hw : ∀ s ∈ p, s.fits = true) (ht : targets o.maxDepth true v p = .ok ls) (hne : ls ≠ [])
    (h : p.write o creating .set v x = .ok r) : ∀ l ∈ ls, v.hosts l = true := by
  by_contra hout
  simp only [not_forall, Bool.not_eq_true] at hout
  obtain ⟨l, hl, hout⟩ := hout
  obtain ⟨n, m, he⟩ := applyAll_writeChange_of_beyond hv (makes_set x)
    (fun l hl m hm => length_eq_of_mem_targets ht hl hm)
    (fun l hl => hosts_or_beyond hv hw ht hl) ⟨l, hl, hout⟩
  rw [write_of_targets ha ht hne, he] at h
  cases h

-- A write puts its value where the path leads to, and changes nothing about where that is. So the
-- value is read back once for every location, and a later write has the result that it would have had
-- without this one. Only where a slice of the path leads out of its array the value cannot be read.
theorem write_read_back (o : Options) (creating : Bool) (hv : v.WellFormed) (hx : x.WellFormed)
    (ha : ∀ s ∈ p, s.isAddressable = true) (hw : ∀ s ∈ p, s.fits = true)
    (hs : ∀ s ∈ p, s.isSelector = false)
    (hl : ∀ s, p.getLast? = some s → s.isSlice = false ∧ ∀ i, s ≠ .index i true)
    (ht : targets o.maxDepth true v p = .ok ls) (hne : ls ≠ [])
    (h : p.write o creating .set v x = .ok r) :
    let q : Query := ⟨p, { o with strict := false, onlyFirst := false }⟩
    ((View.root v).staysWithin p = true → q.get r = .ok (List.replicate ls.length x)) ∧
    ((View.root v).staysWithin p = false → ∃ i n, q.get r = .error (.outOfBounds i n)) ∧
    (∀ xs, q.get v = .ok xs → xs.length ≤ ls.length) ∧
    ∀ y, ∃ z, p.write o creating .set r y = .ok z ∧ p.write o creating .set v y = .ok z := by
  intro q
  have hlen : ∀ l ∈ ls, ∀ m ∈ ls, m.length = l.length := fun l hl m hm =>
    length_eq_of_mem_targets ht hl hm
  have hd := length_le_of_targets ht
  have hh : ∀ l ∈ ls, v.hosts l = true := hosts_of_write hv ha hw ht hne h
  have hwrite (y : Json) : p.write o creating .set v y = .ok (v.overwrite (fun _ => y) ls) :=
    (write_of_targets ha ht hne).trans (applyAll_writeChange hv (makes_set y) hlen hh)
  cases (hwrite x).symm.trans h
  have hr : (v.overwrite (fun _ => x) ls).WellFormed := Json.wellFormed_overwrite hv fun _ => hx
  have htr := targets_overwrite (f := fun _ => x) hv hw hs ht hh
  have hc : ∀ l ∈ ls, (v.overwrite (fun _ => x) ls).at? l = some x :=
    (Json.updated_overwrite hlen hh).holds
  have hsl : ∀ s, p.getLast? = some s → s.isSlice = false := fun s h => (hl s h).1
  have hget (w : Json) := Query.get_lenient (o := q.options) (v := w) rfl rfl ha hd
    fun i h => (hl _ h).2 i rfl
  rw [← staysWithin_overwrite (f := fun _ => x) hs hsl ht]
  refine ⟨fun hstays => ?read, fun hout => ?out, fun xs hxs => ?count, fun y => ?again⟩
  case read => rw [(hget _).1 hstays, values_of_targets hr hw hsl htr hc hstays]
  case out => exact (hget _).2 hout
  case count =>
    cases hstays : (View.root v).staysWithin p
    case true =>
      cases ((hget v).1 hstays).symm.trans hxs
      simpa using (location_expand_sublist hv hw hsl ht hstays).length_le
    case false =>
      obtain ⟨i, n, he⟩ := (hget v).2 hstays
      cases he.symm.trans hxs
  case again =>
    have hhr : ∀ l ∈ ls, (v.overwrite (fun _ => x) ls).hosts l = true := fun l hl =>
      Json.hosts_of_at? (hc l hl)
    refine ⟨_, ?_, hwrite y⟩
    rw [write_of_targets ha htr hne, applyAll_writeChange hr (makes_set y) hlen hhr,
      Json.overwrite_overwrite]

theorem write_read_back_new_key :
    let v : Json := .arr [.arr [.int 1, .obj [("k", .int 2)]], .arr [.obj []]]
    let r : Json := .arr [.arr [.int 1, .obj [("k", .int 9)]], .arr [.obj [("k", .int 9)]]]
    let p : Path := [.slice ⟨none, none, some (-1)⟩, .elements false, .index (-1) true, .key "k" false]
    p.write .default true .set v (.int 9) = .ok r ∧
      (Query.ofPath p).get r = .ok [.int 9, .int 9] ∧
      ∀ y, ∃ z, p.write .default true .set r y = .ok z ∧ p.write .default true .set v y = .ok z := by
  intro v r p
  have hv : v.WellFormed := by
    simp [v, Json.WellFormed, Json.WellFormedMembers, Json.WellFormedItems, Json.int, Members.keys]
  have ht : targets Options.default.maxDepth true v p =
      .ok [[.index 1, .index 0, .key "k"], [.index 0, .index 1, .key "k"]] := by decide +kernel
  have h : p.write .default true .set v (.int 9) = .ok r := by
    rw [write_of_targets (by decide) ht (by simp),
      applyAll_writeChange hv (makes_set _) (by decide) (by decide)]
    rfl
  have hx : (Json.int 9).WellFormed := by simp [Json.int, Json.WellFormed]
  obtain ⟨hread, _, _, hagain⟩ := write_read_back .default true hv hx (by decide) (by decide)
    (by decide) (by simp [p, Segment.isSlice]) ht (by simp) h
  exact ⟨h, hread (by decide), hagain⟩

end Path

end JsonQuery
