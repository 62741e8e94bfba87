import JsonQuery.Proofs.Nulls
import JsonQuery.Proofs.Padding

namespace JsonQuery

namespace Flat

variable {separator : Char} {limit maxPadding depth n : Nat} {above head : List Char}
  {tail : List (List Char)} {entries es children : List (List Char × Json)}
  {keys keys' : List (List Char)} {ms : List (Option (List Char) × Json)} {v x : Json} {s : Step}
  {l m : Location} {items : List Json} {e : List Char × Json}

-- Whether some key spells the location or goes on behind it.
def Leads (separator : Char) (keys : List (List Char)) (l : Location) : Prop :=
  ∃ key ∈ keys, l.segments <+: key.splitOn separator

instance : Decidable (Leads separator keys l) :=
  inferInstanceAs (Decidable (∃ key ∈ keys, _))

-- The slots of an array of `n` elements to which no key leads.
def gaps (separator : Char) (keys : List (List Char)) (l : Location) (n : Nat) : List Nat :=
  (List.range n).filter fun i => ¬ Leads separator keys (l ++ [.index i])

-- The slots to which some key leads.
def filled (separator : Char) (keys : List (List Char)) (l : Location) (n : Nat) : List Nat :=
  (List.range n).filter fun i => Leads separator keys (l ++ [.index i])

theorem length_gaps_add_filled (separator : Char) (keys : List (List Char)) (l : Location)
    (n : Nat) : (gaps separator keys l n).length + (filled separator keys l n).length = n := by
  have hlen := List.length_eq_length_filter_add (l := List.range n)
    fun i => Leads separator keys (l ++ [.index i])
  simp only [List.length_range, ← decide_not] at hlen
  rw [Nat.add_comm]
  exact hlen.symm

-- The more keys lead to slots, the fewer are left.
theorem length_gaps_le
    (h : ∀ i, Leads separator keys (l ++ [.index i]) → Leads separator keys' (m ++ [.index i]))
    (n : Nat) : (gaps separator keys' m n).length ≤ (gaps separator keys l n).length := by
  refine (List.monotone_filter_right _ fun i hi => ?_).length_le
  exact decide_eq_true fun hl => of_decide_eq_true hi (h i hl)

-- An array is long enough for its children and so many slots more.
theorem length_le_of_assemble (h : assemble limit above children = .ok (.arr items)) :
    items.length ≤ children.length + limit := by
  simp only [assemble] at h
  split at h
  case _ i rest hm =>
    obtain ⟨hseg, _⟩ := mapM_arrayIndex?_eq_some_iff.mp hm
    have hlen := congrArg List.length hseg
    obtain ⟨hle, _, hv⟩ := assembleArray_eq_ok_iff.mp h
    simp only [List.length_map, List.length_cons] at hlen
    rw [Json.arr.inj hv, length_fill, hlen]
    omega
  case _ => cases h

-- Children are at different slots, to which the keys lead that they come from.
theorem length_gaps_add_le (ha : Assembled children (.arr items)) (hn : (children.map (·.1)).Nodup)
    (hk : ∀ c ∈ children, ∃ key ∈ keys, [c.1] <+: key.splitOn separator) :
    (gaps separator keys [] items.length).length + children.length ≤ items.length := by
  have hfilled : children.map (·.1) ⊆
      (filled separator keys [] items.length).map (Nat.toDigits 10) := by
    intro head hh
    obtain ⟨c, hc, rfl⟩ := List.mem_map.mp hh
    obtain ⟨s, hs, ht⟩ := ha.child c hc
    obtain ⟨key, hkey, hp⟩ := hk c hc
    cases s with
    | key k   => cases hs
    | index i =>
      have hi : i < items.length := (List.getElem?_eq_some_iff.mp hs).1
      have hleads : Leads separator keys [.index i] := ⟨key, hkey, by simpa [ht] using hp⟩
      rw [Step.text, Nat.toList_repr] at ht
      exact List.mem_map.mpr ⟨i, by simp [filled, hi, hleads], ht⟩
  have hcount : children.length ≤ (filled separator keys [] items.length).length := by
    simpa only [List.length_map] using (hn.subperm hfilled).length_le
  have hall := length_gaps_add_filled separator keys [] items.length
  omega

-- What a document that is rebuilt from these entries has at its locations: every entry, and no
-- array with too many slots for the entries that lie below it.
structure Tight (separator : Char) (maxPadding : Nat) (entries : List (List Char × Json))
    (v : Json) : Prop where
  placed : ∀ e ∈ entries, ∃ l : Location, v.at? l = some e.2 ∧ l.segments = e.1.splitOn separator
  gaps   : ∀ (l : Location) items, v.at? l = some (.arr items) →
    (∃ e ∈ entries, ∃ head, l.segments ++ [head] <+: e.1.splitOn separator) →
      (gaps separator (entries.map (·.1)) l items.length).length ≤ maxPadding

section

variable (ha : assemble maxPadding above children = .ok v)
  (heads : children.map (·.1) = (group separator entries).map (·.1))
  (hc : ∀ c ∈ children, ∃ ms, (c.1, ms) ∈ group separator entries ∧ (ms = [(none, c.2)] ∨
    ∃ es, ms = es.map (fun e => (some e.1, e.2)) ∧ Tight separator maxPadding es c.2))

include ha heads hc

theorem Tight.placed_of_children (he : e ∈ entries) :
    ∃ l : Location, v.at? l = some e.2 ∧ l.segments = e.1.splitOn separator := by
  have hassembled := assembled_of_assemble (heads ▸ (heads_group separator entries).1) ha
  obtain ⟨head, tail, hs, hh⟩ := head_of_entry separator he
  obtain ⟨c, hmem, rfl⟩ := List.mem_map.mp (heads ▸ hh)
  obtain ⟨s, hchild, ht⟩ := hassembled.child c hmem
  obtain ⟨ms, hg, hx⟩ := hc c hmem
  obtain ⟨m, hm, hv, rfl⟩ := member_of_entry hg he hs
  rcases hx with rfl | ⟨es, rfl, hx⟩
  case inl =>
    cases List.mem_singleton.mp hm
    exact ⟨[s], by simp [Json.at?_cons, hchild, hv, Json.at?_nil], by simp [ht, hs]⟩
  case inr =>
    obtain ⟨e', he', rfl⟩ := List.mem_map.mp hm
    obtain ⟨l, hl, hseg⟩ := hx.placed e' he'
    exact ⟨s :: l, by simp [Json.at?_cons, hchild, hl, hv], by simp [ht, hs, hseg]⟩

theorem Tight.gaps_of_children (hl : v.at? l = some (.arr items)) (he : e ∈ entries)
    (hp : l.segments ++ [head] <+: e.1.splitOn separator) :
    (Flat.gaps separator (entries.map (·.1)) l items.length).length ≤ maxPadding := by
  have hn : (children.map (·.1)).Nodup := heads ▸ (heads_group separator entries).1
  have hassembled := assembled_of_assemble hn ha
  cases l with
  | nil =>
    cases hl
    have hlen := length_le_of_assemble ha
    have hgaps : (Flat.gaps separator (entries.map (·.1)) [] items.length).length +
        children.length ≤ items.length := by
      refine length_gaps_add_le hassembled hn fun c hmem => ?_
      obtain ⟨ms, hg, _⟩ := hc c hmem
      obtain ⟨m, hm⟩ := List.exists_mem_of_ne_nil ms ((heads_group separator entries).2 _ hg)
      obtain ⟨e, he, hs⟩ := entry_of_member hg hm
      exact ⟨e.1, List.mem_map_of_mem he, hs ▸ List.cons_prefix_cons.mpr ⟨rfl, List.nil_prefix⟩⟩
    omega
  | cons s l =>
    rw [Json.at?_cons] at hl
    obtain ⟨x, hs, hl⟩ := Option.bind_eq_some_iff.mp hl
    obtain ⟨head', tail, hsplit, hh⟩ := head_of_entry separator he
    rw [hsplit, Location.segments_cons, List.cons_append, List.cons_prefix_cons] at hp
    obtain ⟨rfl, hp⟩ := hp
    have hmem : (s.text.toList, x) ∈ children :=
      (hassembled.other s x hs).resolve_right fun h => h.1 (heads ▸ hh)
    obtain ⟨ms, hg, hx⟩ := hc _ hmem
    obtain ⟨m, hm, _, rfl⟩ := member_of_entry hg he hsplit
    rcases hx with rfl | ⟨es, rfl, hx⟩
    case inl =>
      cases List.mem_singleton.mp hm
      simp at hp
    case inr =>
      obtain ⟨e', he', rfl⟩ := List.mem_map.mp hm
      refine Nat.le_trans (length_gaps_le (fun i ⟨key, hkey, hi⟩ => ?_) _)
        (hx.gaps l items hl ⟨e', he', head, hp⟩)
      obtain ⟨e'', he'', rfl⟩ := List.mem_map.mp hkey
      obtain ⟨e, he, hs⟩ := entry_of_member hg (List.mem_map_of_mem he'')
      exact ⟨e.1, List.mem_map_of_mem he, hs ▸ List.cons_prefix_cons.mpr ⟨rfl, hi⟩⟩

end

-- The induction follows the recursion: what stands below a group is rebuilt one level deeper.
theorem tight_of_build (h : build separator maxPadding limit depth above entries = .ok v) :
    Tight separator maxPadding entries v := by
  induction depth, above, entries using build.induct separator limit generalizing v with
  | case1 depth above entries hlimit =>
    rw [build, if_pos hlimit] at h
    cases h
  | case2 depth above entries hlimit ih =>
    obtain ⟨children, ha, heads, hc⟩ := build_eq_ok h
    have hc : ∀ c ∈ children, ∃ ms, (c.1, ms) ∈ group separator entries ∧ (ms = [(none, c.2)] ∨
        ∃ es, ms = es.map (fun e => (some e.1, e.2)) ∧ Tight separator maxPadding es c.2) := by
      intro c hm
      obtain ⟨ms, hg, hx⟩ := hc c hm
      refine ⟨ms, hg, hx.imp_right ?_⟩
      rintro ⟨es, hes, hx⟩
      exact ⟨es, hes, ih c.1 es hx⟩
    refine ⟨fun e he => Tight.placed_of_children ha heads hc he, ?_⟩
    rintro l items hl ⟨e, he, head, hp⟩
    exact Tight.gaps_of_children ha heads hc hl he hp

end Flat

namespace Json

variable {o : Options} {v x : Json} {flat : List (String × Json)} {l : Location}
  {items : List Json} {head : List Char}

-- What the empty key holds is not rebuilt.
theorem tight_of_unflat (h : Json.unflat o flat = .ok v) : flat = [("", v)] ∨
    Flat.Tight o.separator.char o.maxPadding (flat.map fun m => (m.1.toList, m.2)) v := by
  rw [Json.unflat, Flat.unflatten] at h
  split at h
  case _ root hroot =>
    split at h
    case isFalse => cases h
    case isTrue hlen =>
      cases h
      obtain ⟨m, rfl⟩ := List.length_eq_one_iff.mp hlen
      exact .inl (congrArg (fun m => [m]) (List.mem_singleton.mp (Members.mem_of_get? hroot)).symm)
  case _ => exact .inr (Flat.tight_of_build h)

-- What lies behind an array is behind one of its indices, and the segment tells which.
theorem index_of_segments (hl : v.at? l = some (.arr items)) {m : Location}
    (hm : v.at? m = some x) (hp : l.segments ++ [head] <+: m.segments) :
    ∃ i < items.length, head = Nat.toDigits 10 i ∧ ∃ rest, m = l ++ .index i :: rest := by
  obtain ⟨rest, rfl⟩ := prefix_of_segments hl hm ((List.prefix_append _ _).trans hp)
  rw [Location.segments, Location.segments, List.map_append, List.prefix_append_right_inj] at hp
  rw [at?_append, hl, Option.bind_some] at hm
  cases rest with
  | nil         => simp at hp
  | cons s rest =>
    rw [at?_cons] at hm
    obtain ⟨c, hc, _⟩ := Option.bind_eq_some_iff.mp hm
    rw [List.map_cons, List.cons_prefix_cons] at hp
    cases s with
    | key k   => cases hc
    | index i =>
      refine ⟨i, (List.getElem?_eq_some_iff.mp hc).1, ?_, rest, rfl⟩
      rw [hp.1, Step.text, Nat.toList_repr]

end Json

-- No more nulls are filled in than the options allow. A write is refused for an index that lies too
-- far behind the elements of its array, which only the first missing step can find there, and a
-- write that goes through adds no more than that to any array. An array that is rebuilt from a flat
-- map has the entries at their own indices and no more slots without one.
theorem padding_stays_within (o : Options) :
    (∀ (v : Json) (p : Path) (w : View) (rest : Path) (op : Operation) (x : Json),
      p.isConcrete = true → o.createMissing = true → p.length ≤ o.maxDepth →
      (View.root v).deepest p = (w, rest) → (∀ i q, .index i q ∈ rest → 0 ≤ i) →
      ((∃ e, Query.write ⟨p, o⟩ op v x = .error e ∧ e.kind = .index) ↔
        ∃ n i q, rest[n]? = some (.index i q) ∧
          (o.maxPadding : Int) < i - (if n = 0 then w.node.itemsOf.length else 0 : Nat)) ∧
      ∀ r, Query.write ⟨p, o⟩ op v x = .ok r →
        ∃ place y, op.apply (if rest.isEmpty then some w.node else none) x = .ok y ∧
          (View.root r).resolve p = .ok place ∧ r.at? place = some y ∧
          ∀ l, ¬ place <+: l →
            (r.nullsBeside place l).length ≤ (v.nullsBeside place l).length + o.maxPadding) ∧
    ∀ (flat : List (String × Json)) (v : Json), Json.unflat o flat = .ok v →
      let spelled (m : String × Json) := m.1.toList.splitOn o.separator.char
      flat = [("", v)] ∨
      (∀ m ∈ flat, ∃ l : Location, v.at? l = some m.2 ∧ l.segments = spelled m) ∧
      ∀ (l : Location) items, v.at? l = some (.arr items) →
        (∃ m ∈ flat, ∃ head, l.segments ++ [head] <+: spelled m) →
        (Flat.gaps o.separator.char (flat.map (·.1.toList)) l items.length).length ≤ o.maxPadding ∧
        ∀ m ∈ flat, ∀ head, l.segments ++ [head] <+: spelled m →
          ∃ i < items.length, head = Nat.toDigits 10 i ∧ ∃ rest : Location,
            v.at? (l ++ .index i :: rest) = some m.2 ∧
            Location.segments (l ++ .index i :: rest) = spelled m := by
  refine ⟨fun v p w rest op x hc ho hl hd hn => ?write, fun flat v h => ?rebuilt⟩
  case write =>
    rw [Query.write, ho]
    exact ⟨Path.write_eq_error_iff hc hd hn hl, fun r hw => Path.nullsBeside_write hc hd hn hw⟩
  case rebuilt =>
    intro spelled
    refine (Json.tight_of_unflat h).imp_right fun ht => ?_
    have hplaced (m) (hm : m ∈ flat) :
        ∃ l : Location, v.at? l = some m.2 ∧ l.segments = spelled m :=
      ht.placed _ (List.mem_map.mpr ⟨m, hm, rfl⟩)
    refine ⟨hplaced, fun l items hl ⟨m, hm, head, hp⟩ => ⟨?gaps, fun m hm head hp => ?indices⟩⟩
    case gaps =>
      have hgaps := ht.gaps l items hl ⟨_, List.mem_map.mpr ⟨m, hm, rfl⟩, head, hp⟩
      rwa [List.map_map] at hgaps
    case indices =>
      obtain ⟨place, hat, hs⟩ := hplaced m hm
      obtain ⟨i, hi, hhead, rest, rfl⟩ := Json.index_of_segments hl hat (hs ▸ hp)
      exact ⟨i, hi, hhead, rest, hat, hs⟩

theorem padding_stays_within_two :
    let o : Options := { Options.default with maxPadding := 2 }
    let v : Json := .obj [("a", .arr [.int 1])]
    let p (i : Int) : Path := [.key "a" false, .index i false, .index 2 true]
    let r : Json := .obj [("a", .arr [.int 1, .null, .null, .arr [.null, .null, .arr [.null]]])]
    let flat : List (String × Json) := [("a.3", .int 1), ("a.0.b", .int 2)]
    let u : Json := .obj [("a", .arr [.obj [("b", .int 2)], .null, .null, .int 1])]
    (∃ e, Query.write ⟨p 4, o⟩ .set v .null = .error e ∧ e.kind = .index) ∧
    Query.write ⟨p 3, o⟩ .append v .null = .ok r ∧
    (∃ place, r.at? place = some (.arr [.null]) ∧ ∀ l, ¬ place <+: l →
      (r.nullsBeside place l).length ≤ (v.nullsBeside place l).length + 2) ∧
    Json.unflat o flat = .ok u ∧
    (Flat.gaps '.' (flat.map (·.1.toList)) [.key "a"] 4).length ≤ 2 := by
  intro o v p r flat u
  obtain ⟨hwrite, hrebuilt⟩ := padding_stays_within o
  have hn (i : Int) (hi : 0 ≤ i) :
      ∀ j q, Segment.index j q ∈ [.index i false, .index 2 true] → 0 ≤ j := by
    rintro j q hj
    rcases List.mem_pair.mp hj with e | e <;> cases e <;> omega
  have hr : Query.write ⟨p 3, o⟩ .append v .null = .ok r := rfl
  have hu : Json.unflat o flat = .ok u := by decide +kernel
  obtain ⟨hfar, _⟩ := hwrite v (p 4) ⟨[.key "a"], .arr [.int 1], none⟩
    [.index 4 false, .index 2 true] .set .null rfl rfl (by decide) rfl (hn 4 (by decide))
  obtain ⟨_, hnear⟩ := hwrite v (p 3) ⟨[.key "a"], .arr [.int 1], none⟩
    [.index 3 false, .index 2 true] .append .null rfl rfl (by decide) rfl (hn 3 (by decide))
  obtain ⟨place, _, hy, _, hat, hnulls⟩ := hnear r hr
  cases hy
  obtain ⟨_, harrays⟩ := (hrebuilt flat u hu).resolve_left (by decide)
  obtain ⟨hgaps, _⟩ := harrays [.key "a"] _ rfl ⟨("a.3", .int 1), by decide, ['3'], by decide⟩
  exact ⟨hfar.mpr ⟨0, 4, false, rfl, by decide⟩, hr, ⟨place, hat, hnulls⟩, hu, hgaps⟩

end JsonQuery
