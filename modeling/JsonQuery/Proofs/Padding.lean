import JsonQuery.Proofs.Assembling
import JsonQuery.Proofs.FlatKeys
import JsonQuery.Proofs.Grouping
import JsonQuery.Query

namespace JsonQuery

namespace Flat

variable {separator : Char} {limit maxPadding depth : Nat} {above head : List Char}
  {entries : List (List Char × Json)} {children : List (List Char × Json)}
  {members : List (Option (List Char) × Json)} {v x : Json}

-- What a document is like that is rebuilt from these entries: every entry is at the location that
-- its key spells, and every location is on the way to an entry or a null element of an array.
structure Rebuilt (separator : Char) (entries : List (List Char × Json)) (v : Json) : Prop where
  distinct  : v.Distinct
  separable : v.Separable separator
  placed    : ∀ e ∈ entries, ∃ l : Location, v.at? l = some e.2 ∧ l.segments = e.1.splitOn separator
  reached   : ∀ (l : Location) x, l ≠ [] → v.at? l = some x →
    (∃ e ∈ entries, l.segments <+: e.1.splitOn separator) ∨
      x = .null ∧ ∃ place i, l = place ++ [.index i]

-- The entries whose keys begin with a segment describe what is there: one of them that ends with
-- it, or all of them by what comes after it.
inductive Describes (separator : Char) (entries : List (List Char × Json)) (head : List Char)
    (x : Json) : Prop
  | leaf (hx : x.isLeaf = true)
      (hm : ∀ m, (head, m) ∈ entries.map (cutEntry separator) ↔ m = (none, x))
  | nested (es : List (List Char × Json)) (hx : Rebuilt separator es x) (hn : es ≠ [])
      (hm : ∀ m, (head, m) ∈ entries.map (cutEntry separator) ↔ ∃ e ∈ es, m = (some e.1, e.2))

namespace Describes

theorem distinct (h : Describes separator entries head x) : x.Distinct := by
  cases h with
  | leaf hx _       => exact Json.distinct_of_isLeaf hx
  | nested _ hx _ _ => exact hx.distinct

theorem separable (h : Describes separator entries head x) : x.Separable separator := by
  cases h with
  | leaf hx _       => exact Json.separable_of_isLeaf hx
  | nested _ hx _ _ => exact hx.separable

-- Something is described only by an entry.
theorem exists_cut (h : Describes separator entries head x) :
    ∃ m, (head, m) ∈ entries.map (cutEntry separator) := by
  cases h with
  | leaf _ hm           => exact ⟨_, (hm _).mpr rfl⟩
  | nested es _ hn hm =>
    obtain ⟨e, he⟩ := List.exists_mem_of_ne_nil es hn
    exact ⟨_, (hm _).mpr ⟨e, he, rfl⟩⟩

theorem placed (h : Describes separator entries head x) {e m} (he : e ∈ entries)
    (hc : cutEntry separator e = (head, m)) :
    ∃ l : Location, x.at? l = some e.2 ∧ head :: l.segments = e.1.splitOn separator := by
  obtain ⟨_, hv, hsplit⟩ := splitOn_of_cutEntry hc
  have hm := List.mem_map.mpr ⟨e, he, hc⟩
  cases h with
  | leaf _ hmem =>
    cases (hmem m).mp hm
    exact ⟨[], congrArg some hv.symm, hsplit.symm⟩
  | nested es hx _ hmem =>
    obtain ⟨e', he', rfl⟩ := (hmem m).mp hm
    obtain ⟨l, hl, hs⟩ := hx.placed e' he'
    exact ⟨l, hv ▸ hl, by rw [hsplit, hs]; rfl⟩

theorem reached (h : Describes separator entries head x) {l : Location} {y}
    (hl : x.at? l = some y) :
    (∃ e ∈ entries, head :: l.segments <+: e.1.splitOn separator) ∨
      y = .null ∧ ∃ place i, l = place ++ [.index i] := by
  cases h with
  | leaf hx hmem =>
    obtain ⟨rfl, _⟩ := Json.at?_of_isLeaf hx hl
    obtain ⟨e, he, hc⟩ := List.mem_map.mp ((hmem _).mpr rfl)
    exact .inl ⟨e, he, by simp [(splitOn_of_cutEntry hc).2.2]⟩
  | nested es hx hn hmem =>
    have below {e'} (he' : e' ∈ es) (hp : l.segments <+: e'.1.splitOn separator) :
        ∃ e ∈ entries, head :: l.segments <+: e.1.splitOn separator := by
      obtain ⟨e, he, hc⟩ := List.mem_map.mp ((hmem _).mpr ⟨e', he', rfl⟩)
      refine ⟨e, he, ?_⟩
      rw [(splitOn_of_cutEntry hc).2.2]
      exact List.cons_prefix_cons.mpr ⟨rfl, hp⟩
    cases l with
    | nil      =>
      obtain ⟨e', he'⟩ := List.exists_mem_of_ne_nil es hn
      exact .inl (below he' List.nil_prefix)
    | cons s l =>
      refine (hx.reached (s :: l) y (by simp) hl).imp_left ?_
      rintro ⟨e', he', hp⟩
      exact below he' hp

end Describes

-- Every entry begins with the segment of one child, and the child is described by all entries that
-- do so.
theorem rebuilt_of_describes (hd : separator.isDigit = false) (ha : Assembled children v)
    (hc : ∀ c ∈ children, Describes separator entries c.1 c.2)
    (hh : ∀ e ∈ entries, (cutEntry separator e).1 ∈ children.map (·.1)) :
    Rebuilt separator entries v where
  distinct := Json.distinct_of_child? ha.steps fun s x hx => by
    rcases ha.other s x hx with hm | ⟨_, rfl, _⟩
    · exact (hc _ hm).distinct
    · exact Json.distinct_of_isLeaf rfl
  separable := Json.separable_of_child? fun s x hx => by
    rcases ha.other s x hx with hm | ⟨_, rfl, i, rfl⟩
    · obtain ⟨m, hm'⟩ := (hc _ hm).exists_cut
      obtain ⟨e, _, he⟩ := List.mem_map.mp hm'
      exact ⟨(splitOn_of_cutEntry he).1, (hc _ hm).separable⟩
    · exact ⟨Json.not_mem_index_text hd i, Json.separable_of_isLeaf rfl⟩
  placed e he := by
    obtain ⟨c, hm, hcut⟩ := List.mem_map.mp (hh e he)
    obtain ⟨s, hs, ht⟩ := ha.child c hm
    obtain ⟨l, hl, hseg⟩ := (hc c hm).placed he (m := (cutEntry separator e).2) (by rw [hcut])
    exact ⟨s :: l, by simp [Json.at?_cons, hs, hl], by simp [ht, hseg]⟩
  reached l x hl hx := by
    cases l with
    | nil      => exact absurd rfl hl
    | cons s l =>
      rw [Json.at?_cons] at hx
      obtain ⟨c, hs, hat⟩ := Option.bind_eq_some_iff.mp hx
      rcases ha.other s c hs with hm | ⟨_, rfl, i, rfl⟩
      · refine ((hc _ hm).reached hat).imp_right ?_
        rintro ⟨rfl, place, i, rfl⟩
        exact ⟨rfl, s :: place, i, rfl⟩
      · obtain ⟨rfl, rfl⟩ := Json.at?_of_isLeaf rfl hat
        exact .inr ⟨rfl, [], i, rfl⟩

-- What a document is put together from: a child for every group, which is one value or rebuilt in
-- its turn.
theorem build_eq_ok (h : build separator maxPadding limit depth above entries = .ok v) :
    ∃ children, assemble maxPadding above children = .ok v ∧
      children.map (·.1) = (group separator entries).map (·.1) ∧
      ∀ c ∈ children, ∃ ms, (c.1, ms) ∈ group separator entries ∧ (ms = [(none, c.2)] ∨
        ∃ es, ms = es.map (fun e => (some e.1, e.2)) ∧
          build separator maxPadding limit (depth + 1) (join separator above c.1) es = .ok c.2) := by
  rw [build] at h
  split at h
  case isTrue  => cases h
  case isFalse =>
    obtain ⟨children, hc, ha⟩ := bind_eq_ok_iff.mp h
    refine ⟨children, ha, map_of_mapM_eq_ok (fun g c hg => ?_) hc, fun c hm => ?_⟩
    case refine_1 =>
      obtain ⟨x, _, e⟩ := bind_eq_ok_iff.mp hg
      cases e
      rfl
    case refine_2 =>
      obtain ⟨⟨head, ms⟩, hg, h⟩ := mem_of_mapM_eq_ok hc c hm
      obtain ⟨x, hx, e⟩ := bind_eq_ok_iff.mp h
      cases e
      exact ⟨ms, hg, member_eq_ok hx⟩

theorem describes_of_mem_group (hl : ∀ e ∈ entries, e.2.isLeaf = true)
    (hg : (head, members) ∈ group separator entries)
    (h : members = [(none, x)] ∨ ∃ es, members = es.map (fun e => (some e.1, e.2)) ∧
      ((∀ e ∈ es, e.2.isLeaf = true) → Rebuilt separator es x)) :
    Describes separator entries head x := by
  have hmem m := mem_of_mem_group (m := m) hg
  have leaf {m} (hm : m ∈ members) : m.2.isLeaf = true := by
    obtain ⟨e, he, hc⟩ := List.mem_map.mp ((hmem m).mp hm)
    rw [← (splitOn_of_cutEntry hc).2.1]
    exact hl e he
  rcases h with rfl | ⟨es, rfl, hx⟩
  case inl => exact .leaf (leaf List.mem_cons_self) fun m => by simp [← hmem]
  case inr =>
    refine .nested es (hx fun e he => leaf (List.mem_map_of_mem he)) ?_ fun m => ?_
    · rintro rfl
      exact (heads_group separator entries).2 _ hg rfl
    · rw [← hmem, List.mem_map]
      exact exists_congr fun e => and_congr_right fun _ => eq_comm

-- The induction follows the recursion: what stands below a group is rebuilt one level deeper.
theorem rebuilt_of_build (hd : separator.isDigit = false) (hl : ∀ e ∈ entries, e.2.isLeaf = true)
    (h : build separator maxPadding limit depth above entries = .ok v) :
    Rebuilt separator entries v := by
  induction depth, above, entries using build.induct separator limit generalizing v with
  | case1 depth above entries hlimit =>
    rw [build, if_pos hlimit] at h
    cases h
  | case2 depth above entries hlimit ih =>
    obtain ⟨children, ha, heads, hc⟩ := build_eq_ok h
    have hn := (heads_group separator entries).1
    refine rebuilt_of_describes hd (assembled_of_assemble (heads ▸ hn) ha) (fun c hm => ?_)
      fun e he => ?_
    case refine_1 =>
      obtain ⟨ms, hg, hx⟩ := hc c hm
      refine describes_of_mem_group hl hg (hx.imp_right ?_)
      rintro ⟨es, hes, hx⟩
      exact ⟨es, hes, fun hl => ih c.1 es hl hx⟩
    case refine_2 =>
      obtain ⟨ms, hg, _⟩ := lists_group.mpr (List.mem_map_of_mem (f := cutEntry separator) he)
      exact heads ▸ List.mem_map_of_mem (f := (·.1)) hg

namespace Rebuilt

variable {l : Location}

theorem isLeaf_eq_false (h : Rebuilt separator entries v) (hn : entries ≠ []) : v.isLeaf = false := by
  obtain ⟨e, he⟩ := List.exists_mem_of_ne_nil entries hn
  obtain ⟨l, hl, hs⟩ := h.placed e he
  rw [Bool.eq_false_iff]
  intro hv
  obtain ⟨rfl, _⟩ := Json.at?_of_isLeaf hv hl
  exact List.splitOn_ne_nil separator e.1 hs.symm

-- A location on the way to an entry is that of the entry if there is a leaf.
theorem mem_of_reached (h : Rebuilt separator entries v) (hl : v.at? l = some x)
    (hx : x.isLeaf = true) {e} (he : e ∈ entries) (hp : l.segments <+: e.1.splitOn separator) :
    ((l.flatKey separator).toList, x) ∈ entries := by
  obtain ⟨m, hm, hs⟩ := h.placed e he
  obtain ⟨rest, rfl⟩ := Json.prefix_of_segments hl hm (hs ▸ hp)
  rw [Json.at?_append, hl] at hm
  obtain ⟨rfl, hv⟩ := Json.at?_of_isLeaf hx hm
  rw [List.append_nil] at hs
  rw [Location.flatKey, hs, List.intercalate_splitOn, String.toList_ofList, ← hv]
  exact he

end Rebuilt

end Flat

namespace Json

variable {o : Options} {v x : Json} {l : Location} {flat : List (String × Json)} {separator : Char}

-- A slot of an array to which no key of the flat map leads, so that nothing but padding is there.
def Padded (separator : Char) (flat : List (String × Json)) (v : Json) (l : Location) : Prop :=
  (∃ place i items, l = place ++ [.index i] ∧ v.at? place = some (.arr items) ∧ i < items.length) ∧
    ∀ m ∈ flat, ¬ l.segments <+: m.1.toList.splitOn separator

-- The leaves to which no key of the flat map leads.
def paddedSlots (separator : Char) (flat : List (String × Json)) (v : Json) : List Location :=
  (v.placedLeaves.map (·.1)).filter fun l =>
    ∀ m ∈ flat, ¬ l.segments <+: m.1.toList.splitOn separator

section

variable (hr : Flat.Rebuilt separator (flat.map fun m => (m.1.toList, m.2)) v)

include hr

theorem null_of_reached (hl : v.at? l = some x) (hn : l ≠ [])
    (hp : ∀ m ∈ flat, ¬ l.segments <+: m.1.toList.splitOn separator) :
    x = .null ∧ ∃ place i, l = place ++ [.index i] := by
  refine (hr.reached l x hn hl).resolve_left ?_
  rintro ⟨e, he, hle⟩
  obtain ⟨m, hm, rfl⟩ := List.mem_map.mp he
  exact hp m hm hle

theorem padded_iff (hv : v.isLeaf = false) : Padded separator flat v l ↔
    (l, .null) ∈ v.placedLeaves ∧ ∀ m ∈ flat, ¬ l.segments <+: m.1.toList.splitOn separator := by
  refine and_congr_left fun hp => ⟨?_, fun hl => ?_⟩
  case refine_1 =>
    rintro ⟨place, i, items, rfl, hplace, hi⟩
    have hat : v.at? (place ++ [.index i]) = some items[i] := by
      simp [at?_snoc, hplace, child?, hi]
    obtain ⟨hnull, _⟩ := null_of_reached hr hat (by simp) hp
    exact (mem_placedLeaves hr.distinct).mpr ⟨hnull ▸ hat, rfl⟩
  case refine_2 =>
    obtain ⟨hat, _⟩ := (mem_placedLeaves hr.distinct).mp hl
    obtain ⟨_, place, i, rfl⟩ :=
      null_of_reached hr hat (ne_nil_of_mem_placedLeaves hr.distinct hv hl) hp
    rw [at?_snoc] at hat
    obtain ⟨c, hc, hat⟩ := Option.bind_eq_some_iff.mp hat
    cases c <;> simp only [child?, reduceCtorEq] at hat
    case arr items => exact ⟨place, i, items, rfl, hc, (List.getElem?_eq_some_iff.mp hat).1⟩

-- The leaves of a rebuilt document are the members of the flat map and the slots that were padded.
theorem mem_placedLeaves_iff (hx : ∀ m ∈ flat, m.2.isLeaf = true) (hv : v.isLeaf = false) :
    (l, x) ∈ v.placedLeaves ↔
      v.at? l = some x ∧ (l.flatKey separator, x) ∈ flat ∨ Padded separator flat v l ∧ x = .null := by
  constructor
  case mp =>
    intro hm
    obtain ⟨hat, hleaf⟩ := (mem_placedLeaves hr.distinct).mp hm
    by_cases hp : ∃ m ∈ flat, l.segments <+: m.1.toList.splitOn separator
    case pos =>
      obtain ⟨m, hm, hp⟩ := hp
      have he := hr.mem_of_reached hat hleaf (List.mem_map_of_mem hm) hp
      obtain ⟨m', hm', e⟩ := List.mem_map.mp he
      obtain ⟨hk, rfl⟩ := Prod.mk.inj e
      exact .inl ⟨hat, String.toList_inj.mp hk ▸ hm'⟩
    case neg =>
      have hp : ∀ m ∈ flat, ¬ l.segments <+: m.1.toList.splitOn separator :=
        fun m hm hle => hp ⟨m, hm, hle⟩
      obtain ⟨rfl, _⟩ :=
        null_of_reached hr hat (ne_nil_of_mem_placedLeaves hr.distinct hv hm) hp
      exact .inr ⟨(padded_iff hr hv).mpr ⟨hm, hp⟩, rfl⟩
  case mpr =>
    rintro (⟨hat, hm⟩ | ⟨hp, rfl⟩)
    case inl => exact (mem_placedLeaves hr.distinct).mpr ⟨hat, hx _ hm⟩
    case inr => exact ((padded_iff hr hv).mp hp).1

theorem mem_paddedSlots (hv : v.isLeaf = false) :
    l ∈ paddedSlots separator flat v ↔ Padded separator flat v l := by
  rw [padded_iff hr hv, paddedSlots, List.mem_filter, decide_eq_true_eq]
  refine and_congr_left fun hp => ⟨fun hm => ?_, List.mem_map_of_mem⟩
  obtain ⟨⟨m, x⟩, hmem, e⟩ := List.mem_map.mp hm
  cases e
  obtain ⟨hat, _⟩ := (mem_placedLeaves hr.distinct).mp hmem
  obtain ⟨rfl, _⟩ := null_of_reached hr hat (ne_nil_of_mem_placedLeaves hr.distinct hv hmem) hp
  exact hmem

theorem nodup_paddedSlots : (paddedSlots separator flat v).Nodup :=
  (nodup_placedLeaves hr.distinct).filter _

-- The slots have keys of their own.
theorem keys_nodup_padded (hk : (Members.keys flat).Nodup) (hv : v.isLeaf = false) :
    (Members.keys (flat ++ (paddedSlots separator flat v).map
      fun l => (l.flatKey separator, .null))).Nodup := by
  have slot {l} (hl : l ∈ paddedSlots separator flat v) :
      v.at? l = some .null ∧ l ≠ [] ∧
        ∀ m ∈ flat, ¬ l.segments <+: m.1.toList.splitOn separator := by
    obtain ⟨hm, hp⟩ := (padded_iff hr hv).mp ((mem_paddedSlots hr hv).mp hl)
    obtain ⟨hat, _⟩ := (mem_placedLeaves hr.distinct).mp hm
    exact ⟨hat, ne_nil_of_mem_placedLeaves hr.distinct hv hm, hp⟩
  rw [Members.keys_append, Members.keys, Members.keys, List.map_map]
  refine List.nodup_append.mpr ⟨hk, ?among, ?apart⟩
  case among =>
    refine List.Nodup.map_on (fun l hl m hm e => ?_) (nodup_paddedSlots hr)
    obtain ⟨hat, hne, _⟩ := slot hl
    obtain ⟨hat', hne', _⟩ := slot hm
    exact flatKey_inj hr.separable hat hat' hne hne' e
  case apart =>
    intro k hk k' hk' e
    obtain ⟨m, hm, rfl⟩ := List.mem_map.mp hk
    obtain ⟨l, hl, rfl⟩ := List.mem_map.mp hk'
    obtain ⟨hat, hne, hp⟩ := slot hl
    have e : m.1 = l.flatKey separator := e
    have hs : m.1.toList.splitOn separator = l.segments := by
      rw [e, Location.splitOn_flatKey hne (hr.separable l _ hat)]
    exact hp m hm (hs ▸ List.prefix_rfl)

-- Flattening what was rebuilt adds a null for every padded slot and changes nothing else.
theorem flatMembers_perm (hk : (Members.keys flat).Nodup) (hx : ∀ m ∈ flat, m.2.isLeaf = true)
    (hv : v.isLeaf = false) : (v.flatMembers separator).Perm
      (flat ++ (paddedSlots separator flat v).map fun l => (l.flatKey separator, .null)) := by
  have hkeys : (Members.keys (v.flatMembers separator)).Nodup := by
    rw [flatMembers_eq hr.distinct hr.separable hv, Members.keys, List.map_map]
    exact nodup_flatKeys hr.distinct hr.separable hv
  refine (List.perm_ext_iff_of_nodup hkeys.of_map (keys_nodup_padded hr hk hv).of_map).mpr ?_
  rintro ⟨k, x⟩
  rw [flatMembers_eq hr.distinct hr.separable hv, List.mem_append, List.mem_map, List.mem_map]
  constructor
  case mp =>
    rintro ⟨⟨l, y⟩, hm, e⟩
    cases e
    rcases (mem_placedLeaves_iff hr hx hv).mp hm with ⟨_, hm⟩ | ⟨hp, rfl⟩
    case inl => exact .inl hm
    case inr => exact .inr ⟨l, (mem_paddedSlots hr hv).mpr hp, rfl⟩
  case mpr =>
    rintro (hm | ⟨l, hl, e⟩)
    case inl =>
      obtain ⟨l, hat, hs⟩ := hr.placed _ (List.mem_map_of_mem hm)
      have e : l.flatKey separator = k := Location.flatKey_of_segments hs
      exact ⟨(l, x), (mem_placedLeaves_iff hr hx hv).mpr (.inl ⟨hat, e ▸ hm⟩), by rw [e]⟩
    case inr =>
      cases e
      have hp := (mem_paddedSlots hr hv).mp hl
      exact ⟨(l, .null), (mem_placedLeaves_iff hr hx hv).mpr (.inr ⟨hp, rfl⟩), rfl⟩

end

theorem not_padded_of_isLeaf (hv : v.isLeaf = true) : ¬ Padded separator flat v l := by
  rintro ⟨⟨place, i, items, _, hplace, hi⟩, _⟩
  obtain ⟨_, rfl⟩ := at?_of_isLeaf hv hplace
  cases items with
  | nil      => simp at hi
  | cons x _ => cases hv

-- A document that is rebuilt from no keys or from the empty key is a leaf. All others are rebuilt
-- from their entries.
theorem unflat_eq_ok (hx : ∀ m ∈ flat, m.2.isLeaf = true) (hne : flat ≠ [("", .obj [])])
    (hd : o.separator.char.isDigit = false) (h : Json.unflat o flat = .ok v) :
    v.isLeaf = true ∧ v.flatMembers o.separator.char = flat ∨
      v.isLeaf = false ∧ Flat.Rebuilt o.separator.char (flat.map fun m => (m.1.toList, m.2)) v := by
  rw [Json.unflat, Flat.unflatten] at h
  split at h
  case _ root hroot =>
    split at h
    case isFalse => cases h
    case isTrue hlen =>
      cases h
      obtain ⟨m, rfl⟩ := List.length_eq_one_iff.mp hlen
      cases List.mem_singleton.mp (Members.mem_of_get? hroot)
      have hv := hx ("", v) List.mem_cons_self
      refine .inl ⟨hv, ?_⟩
      cases v
      case arr items => cases items <;> first | rfl | cases hv
      case obj ms    => cases ms <;> first | exact absurd rfl hne | cases hv
      all_goals rfl
  case _ =>
    have hl : ∀ e ∈ flat.map fun m => (m.1.toList, m.2), e.2.isLeaf = true := by
      rw [List.forall_mem_map]
      exact hx
    have hr := Flat.rebuilt_of_build hd hl h
    cases flat with
    | nil =>
      rw [List.map_nil, Flat.build, if_neg (Nat.not_lt_zero _)] at h
      cases h
      exact .inl ⟨rfl, rfl⟩
    | cons m flat => exact .inr ⟨hr.isLeaf_eq_false (by simp), hr⟩

-- A flat map is what its document is flattened to, but for the slots that were padded.
theorem flat_unflat (hk : (Members.keys flat).Nodup) (hx : ∀ m ∈ flat, m.2.isLeaf = true)
    (hne : flat ≠ [("", .obj [])]) (hd : o.separator.char.isDigit = false)
    (h : Json.unflat o flat = .ok v) :
    ∃ (back : List (String × Json)) (slots : List Location),
      v.flat o = .obj back ∧ (Members.keys back).Nodup ∧ slots.Nodup ∧
      (∀ l, l ∈ slots ↔ Padded o.separator.char flat v l) ∧
      back.Perm (flat ++ slots.map fun l => (l.flatKey o.separator.char, .null)) := by
  rcases unflat_eq_ok hx hne hd h with ⟨hv, e⟩ | ⟨hv, hr⟩
  case inl =>
    refine ⟨flat, [], congrArg Json.obj e, hk, List.nodup_nil, fun l => ?_, by simp⟩
    simpa using not_padded_of_isLeaf hv
  case inr =>
    have hp := flatMembers_perm hr hk hx hv
    exact ⟨_, _, rfl, (hp.map _).nodup_iff.mpr (keys_nodup_padded hr hk hv), nodup_paddedSlots hr,
      fun l => mem_paddedSlots hr hv, hp⟩

theorem flat_unflat_padded :
    let flat : List (String × Json) := [("a.2", .bool true), (".x", .obj []), ("b.01", .null)]
    let v : Json := .obj
      [("a", .arr [.null, .null, .bool true]), ("", .obj [("x", .obj [])]),
        ("b", .obj [("01", .null)])]
    let back : List (String × Json) :=
      [("a.0", .null), ("a.1", .null), ("a.2", .bool true), (".x", .obj []), ("b.01", .null)]
    Json.unflat .default flat = .ok v ∧ v.flat .default = .obj back ∧
      ∃ slots : List Location, slots.Nodup ∧ (∀ l, l ∈ slots ↔ Padded '.' flat v l) ∧
        back.Perm (flat ++ slots.map fun l => (l.flatKey '.', .null)) := by
  intro flat v back
  have h : Json.unflat .default flat = .ok v := by decide +kernel
  have hback : v.flat .default = .obj back := by decide
  obtain ⟨_, slots, hv, _, hn, hslots, hp⟩ := flat_unflat (o := .default) (by decide) (by decide)
    (by decide) (by decide) h
  cases hv.symm.trans hback
  exact ⟨h, hback, slots, hn, hslots, hp⟩

end Json

end JsonQuery
