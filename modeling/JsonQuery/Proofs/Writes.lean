import JsonQuery.Edit.Write
import JsonQuery.Proofs.Children
import JsonQuery.Proofs.Locations
import JsonQuery.Proofs.Overwrite

namespace JsonQuery

namespace Json

variable {f : Option Json → Json} {ls : List Location} {v : Json} {items : List Json}
  {ms : List (String × Json)} {s : Step} {l : Location} {k : String}

-- The change that writes to one location.
def changeAt (f : Option Json → Json) (v : Json) (l : Location) : Change :=
  match v.at? l with
  | some old => .replace l (f (some old))
  | none     => .add l (f none)

theorem run?_changeAt_cons {c w : Json} (hc : v.child? s = some c) :
    (v.changeAt f (s :: l)).run? w = w.alterChild? s (c.changeAt f l).run? := by
  have e : v.at? (s :: l) = c.at? l := by simp [at?_cons, hc]
  simp only [changeAt, e]
  cases hl : c.at? l with
  | some old => exact Change.run?_replace_cons
  | none     => exact Change.run?_add_cons fun h => by simp [h, at?_nil] at hl

theorem newKeys_append : newKeys ms (ls ++ [l]) =
    match newKey? ms l with
    | some k => if k ∈ newKeys ms ls then newKeys ms ls else newKeys ms ls ++ [k]
    | none   => newKeys ms ls := by
  simp only [newKeys, List.filterMap_append, List.eraseDups_append]
  cases h : newKey? ms l with
  | none => simp [h]
  | some k =>
    simp only [List.filterMap_cons, h, List.filterMap_nil, List.mem_eraseDups]
    generalize ls.filterMap (newKey? ms) = ks
    split <;> simp [List.removeAll, List.eraseDups_cons, *]

-- A new key is that of a value that is not there.
theorem newKeys_snoc_of_child? {c : Json} (hc : (obj ms).child? s = some c) (l : Location) :
    newKeys ms (ls ++ [s :: l]) = newKeys ms ls := by
  rw [newKeys_append]
  cases hn : newKey? ms (s :: l) with
  | none => rfl
  | some j =>
    obtain ⟨e, hj⟩ := newKey?_eq_some_iff.mp hn
    obtain ⟨es, _⟩ := List.cons.inj e
    subst es
    exact absurd (Members.mem_keys_of_get? hc) hj

-- A child of the overwritten document that takes one more new value.
theorem alterChild?_overwrite {c : Json} {g : Json → Option Json} (hv : v.WellFormed) (h : [] ∉ ls)
    (hc : v.child? s = some c)
    (hg : g (c.overwrite f (Location.below s ls)) =
      some (c.overwrite f (Location.below s ls ++ [l]))) :
    (v.overwrite f ls).alterChild? s g = some (v.overwrite f (ls ++ [s :: l])) := by
  have h' : [] ∉ ls ++ [s :: l] := by simp [h]
  have halter : (v.mapChildren fun t x => x.overwrite f (Location.below t ls)).alterChild? s g =
      some (v.mapChildren fun t x => x.overwrite f (Location.below t (ls ++ [s :: l]))) := by
    refine alterChild?_mapChildren hv hc ?self fun t x ht => ?other
    case self => rwa [Location.below_snoc_self]
    case other => rw [Location.below_snoc_of_ne ht.symm]
  cases v
  case arr items =>
    rw [overwrite_arr h, overwrite_arr h']
    exact halter
  case obj ms =>
    rw [overwrite_obj h, overwrite_obj h', newKeys_snoc_of_child? hc]
    exact alterChild?_append halter
  all_goals cases hc

-- A new key comes behind the keys that are there and behind other new ones.
theorem addChild?_overwrite (h : [] ∉ ls) (hk : k ∉ Members.keys ms) :
    ((obj ms).overwrite f ls).addChild? (.key k) (f none) =
      some ((obj ms).overwrite f (ls ++ [[.key k]])) := by
  have h' : [] ∉ ls ++ [[.key k]] := by simp [h]
  have hold : Members.mapValues (fun j x => x.overwrite f (Location.below (.key j) (ls ++ [[.key k]]))) ms =
      Members.mapValues (fun j x => x.overwrite f (Location.below (.key j) ls)) ms := by
    refine Members.mapValues_congr fun j x hm => ?_
    have hne : Step.key k ≠ Step.key j := by
      rintro ⟨⟩
      exact hk (List.mem_map.mpr ⟨_, hm, rfl⟩)
    rw [Location.below_snoc_of_ne hne]
  rw [overwrite_obj h, overwrite_obj h', hold, newKeys_append, newKey?_eq_some_iff.mpr ⟨rfl, hk⟩]
  simp only [addChild?]
  generalize hm : Members.mapValues (fun j x => x.overwrite f (Location.below (.key j) ls)) ms = old
  have hk : k ∉ Members.keys old := by simpa [← hm] using hk
  by_cases hn : k ∈ newKeys ms ls
  case pos =>
    have hg : Members.get? (old ++ (newKeys ms ls).map fun k => (k, f none)) k = some (f none) := by
      rw [Members.get?_append, Members.get?_eq_none_iff.mpr hk, Members.get?_map_pair hn]
      rfl
    simp [hn, Members.insert_self hg]
  case neg =>
    have hk' : k ∉ Members.keys (old ++ (newKeys ms ls).map fun k => (k, f none)) := by
      simp [hk, hn]
    simp [hn, Members.insert_of_not_mem hk']

-- One more write after writes to other locations of the same length. Its new value is computed from
-- the document before all of them.
theorem run?_changeAt_overwrite (hv : v.WellFormed) (hl : ∀ m ∈ ls, m.length = l.length)
    (hh : v.hosts l = true) :
    (v.changeAt f l).run? (v.overwrite f ls) = some (v.overwrite f (ls ++ [l])) := by
  induction l generalizing v ls with
  | nil => simp [changeAt, at?_nil, Change.run?, alter?_nil, overwrite_of_mem]
  | cons s rest ih =>
    have hn : [] ∉ ls := fun h => by simpa using hl [] h
    cases hc : v.child? s with
    | some c =>
      rw [run?_changeAt_cons hc]
      have hh : c.hosts rest = true := by rwa [← hosts_cons hc]
      exact alterChild?_overwrite hv hn hc
        (ih (hv.child? hc) (Location.length_of_mem_below hl) hh)
    | none =>
      obtain ⟨e, ms, k, hms, hs, hk⟩ := eq_key_of_hosts hc hh
      subst e hms hs
      have ha : (obj ms).at? [.key k] = none := by simp [at?_cons, hc]
      simp only [changeAt, ha, Change.run?, List.getLast?_singleton, List.dropLast_singleton, alter?_nil]
      exact addChild?_overwrite hn hk

theorem applyFrom_changeAt_overwrite {after : List Location} (number : Nat)
    (before : List Location) (hv : v.WellFormed)
    (hl : ∀ l ∈ before ++ after, ∀ m ∈ before ++ after, m.length = l.length)
    (hh : ∀ l ∈ after, v.hosts l = true) :
    Change.applyFrom number (v.overwrite f before) (after.map (v.changeAt f)) =
      .ok (v.overwrite f (before ++ after)) := by
  induction after generalizing before number with
  | nil => simp [Change.applyFrom]
  | cons l rest ih =>
    obtain ⟨hl', hr⟩ := List.forall_mem_cons.mp hh
    have hlen : ∀ m ∈ before, m.length = l.length := fun m hm => hl l (by simp) m (by simp [hm])
    have hrun := run?_changeAt_overwrite (f := f) hv hlen hl'
    simp only [List.map_cons, Change.applyFrom, hrun]
    simpa using ih (number + 1) (before ++ [l]) (by simpa using hl) hr

theorem hosts_of_beyond (h : v.Beyond l) : v.hosts l = false := by
  obtain ⟨m, i, items, e, hm, hi⟩ := h
  have hc : (arr items).child? (.index i) = none := by simp [child?, Nat.le_of_lt hi]
  simp [e, hosts_append hm, hosts, hc]

theorem run?_changeAt_of_beyond (hl : ∀ m ∈ ls, m.length = l.length) (h : v.Beyond l) :
    (v.changeAt f l).run? (v.overwrite f ls) = none := by
  obtain ⟨m, i, items, e, hm, hi⟩ := h
  subst e
  induction m generalizing v ls with
  | nil =>
    cases hm
    have hn : [] ∉ ls := fun h => by simpa using hl [] h
    have ha : (arr items).at? [.index i] = none := by simp [at?_cons, child?, Nat.le_of_lt hi]
    simp [changeAt, ha, Change.run?, alter?_nil, overwrite_arr hn, addChild?, Nat.not_le.mpr hi]
  | cons s m ih =>
    rw [at?_cons] at hm
    obtain ⟨c, hc, hm⟩ := Option.bind_eq_some_iff.mp hm
    have hn : [] ∉ ls := fun h => by simpa using hl [] h
    rw [List.cons_append, run?_changeAt_cons hc]
    exact alterChild?_eq_none (child?_overwrite hn hc) (ih hm (Location.length_of_mem_below hl))

theorem location_changeAt (f : Option Json → Json) (v : Json) (l : Location) :
    (v.changeAt f l).location = l := by
  simp only [changeAt]
  cases v.at? l <;> rfl

-- Writes to some locations fail at the first one that leads out of its array.
theorem applyFrom_changeAt_of_beyond {after : List Location} (number : Nat)
    (before : List Location) (hv : v.WellFormed)
    (hl : ∀ l ∈ before ++ after, ∀ m ∈ before ++ after, m.length = l.length)
    (hh : ∀ l ∈ after, v.hosts l = true ∨ v.Beyond l) (hb : ∃ l ∈ after, v.hosts l = false) :
    ∃ n, ∃ l ∈ after, v.hosts l = false ∧
      Change.applyFrom number (v.overwrite f before) (after.map (v.changeAt f)) =
        .error (.unappliable n l) := by
  induction after generalizing before number with
  | nil => simp at hb
  | cons l rest ih =>
    obtain ⟨hl', hr⟩ := List.forall_mem_cons.mp hh
    have hlen : ∀ m ∈ before, m.length = l.length := fun m hm => hl l (by simp) m (by simp [hm])
    cases hc : v.hosts l with
    | true =>
      have hb : ∃ m ∈ rest, v.hosts m = false := by simpa [hc] using hb
      have hrun := run?_changeAt_overwrite (f := f) hv hlen hc
      obtain ⟨n, m, hm, hn, he⟩ := ih (number + 1) (before ++ [l]) (by simpa using hl) hr hb
      exact ⟨n, m, List.mem_cons_of_mem _ hm, hn, by simpa [Change.applyFrom, hrun] using he⟩
    | false =>
      have hb : v.Beyond l := by simpa [hc] using hl'
      have hrun := run?_changeAt_of_beyond (f := f) hlen hb
      exact ⟨number, l, List.mem_cons_self, hc,
        by simp [Change.applyFrom, hrun, location_changeAt]⟩

end Json

namespace View

variable {v : Json} {u : View} {s : Segment} {l : Location} {absent : Bool}

-- A location that an addressable segment leads to can take a value, unless a slice leads far out of
-- the array.
theorem Within.hosts_or_beyond (hv : v.WellFormed) (h : u.Within v) (hc : u.Counted)
    (hw : s.fits = true) (hl : l ∈ u.locations s absent) : v.hosts l = true ∨ v.Beyond l := by
  cases mem_locations hl
  case inl ht =>
    obtain ⟨t, hm, e⟩ := ht
    subst e
    refine (h.at?_or_beyond hv hc hw hm).imp_left fun hs => ?_
    obtain ⟨c, hc⟩ := Option.isSome_iff_exists.mp hs
    exact Json.hosts_of_at? hc
  case inr ht =>
    obtain ⟨_, name, _, ms, _, hms, e⟩ := ht
    rw [e, Json.hosts_append h.at?_eq, h.node_of_value_obj hms]
    exact .inl Json.hosts_key

-- A location without a value that can take one is that of a key that an object does not have yet.
theorem Within.eq_key_of_hosts (hv : v.WellFormed) (h : u.Within v) (hc : u.Counted)
    (hw : s.fits = true) (hl : l ∈ u.locations s absent) (hh : v.hosts l = true)
    (hn : v.at? l = none) : ∃ name q, s = .key name q ∧ l.getLast? = some (.key name) := by
  cases mem_locations hl
  case inr ht =>
    obtain ⟨_, name, q, _, es, _, e⟩ := ht
    exact ⟨name, q, es, by simp [e]⟩
  case inl ht =>
    obtain ⟨t, hm, e⟩ := ht
    subst e
    cases h.at?_or_beyond hv hc hw hm
    case inl hs => simp [hn] at hs
    case inr hb => simp [Json.hosts_of_beyond hb] at hh

theorem Within.hosts_of_faithful (h : u.Within v) (hf : u.Faithful) (hs : u.stray? s = none)
    (hl : l ∈ u.locations s absent) : v.hosts l = true := by
  cases mem_locations hl
  case inl ht =>
    obtain ⟨t, ht, e⟩ := ht
    obtain ⟨c, _, hc⟩ := h.at?_location hf hs ht
    exact e ▸ Json.hosts_of_at? hc
  case inr ht =>
    obtain ⟨_, name, _, ms, _, hms, e⟩ := ht
    rw [e, Json.hosts_append h.at?_eq, h.node_of_value_obj hms]
    exact Json.hosts_key

end View

namespace Operation

-- The value that an operation makes of every old one. An operation that does not fit the given value
-- makes none.
def Makes (op : Operation) (x : Json) (f : Option Json → Json) : Prop :=
  ∀ old, op.apply old x = .ok (f old)

variable {op : Operation} {v x : Json} {f : Option Json → Json} {ls : List Location}

theorem makes_or_error (op : Operation) (x : Json) :
    (∃ f, op.Makes x f) ∨ ∀ old, op.apply old x = .error (.notExtendable x.kind) := by
  cases op with
  | set    => exact .inl ⟨fun _ => x, fun _ => rfl⟩
  | append => exact .inl ⟨fun old => .arr (base old ++ [x]), fun _ => rfl⟩
  | extend =>
    cases x
    case arr items => exact .inl ⟨fun old => .arr (base old ++ items), fun _ => rfl⟩
    all_goals exact .inr fun _ => rfl

theorem Makes.mapM_writeChange (h : op.Makes x f) (v : Json) (ls : List Location) :
    ls.mapM (Path.writeChange op v x) = .ok (ls.map (v.changeAt f)) := by
  induction ls with
  | nil => rfl
  | cons l rest ih =>
    have hl : Path.writeChange op v x l = .ok (v.changeAt f l) := by
      simp only [Path.writeChange, Json.changeAt, h _]
      cases v.at? l <;> rfl
    rw [List.mapM_cons, hl, ih]
    rfl

theorem mapM_writeChange_eq_error {e : Error} (h : ∀ old, op.apply old x = .error e)
    (hls : ls ≠ []) : ls.mapM (Path.writeChange op v x) = .error e := by
  cases ls with
  | nil => exact absurd rfl hls
  | cons l rest =>
    have hl : Path.writeChange op v x l = .error e := by
      simp only [Path.writeChange, h]
      cases v.at? l <;> rfl
    rw [List.mapM_cons, hl]
    rfl

end Operation

namespace Path

variable {o : Options} {limit : Nat} {creating absent : Bool} {op : Operation} {v x : Json}
  {p : Path} {l m : Location} {ls : List Location} {f : Option Json → Json}

theorem ensureAddressable_eq_ok (ha : ∀ s ∈ p, s.isAddressable = true) :
    p.ensureAddressable = .ok () := by
  have h : p.find? (!·.isAddressable) = none := List.find?_eq_none.mpr (by simpa using ha)
  simp [ensureAddressable, h]

theorem hosts_or_beyond (hv : v.WellFormed) (hw : ∀ s ∈ p, s.fits = true)
    (ht : targets limit absent v p = .ok ls) (hl : l ∈ ls) : v.hosts l = true ∨ v.Beyond l := by
  cases mem_targets ht hl
  case inl h => exact .inl (h.2 ▸ rfl)
  case inr h =>
    obtain ⟨q, s, hp, u, hu, hl⟩ := h
    subst hp
    obtain ⟨hq, hs⟩ := List.forall_mem_append.mp hw
    exact ((View.Within.root v).expand hu).hosts_or_beyond hv
      ((View.counted_root v).expand (View.Within.root v) hq hu) (hs s (by simp)) hl

-- A path whose slices stay within their arrays leads only to locations that can take a value.
theorem hosts_of_staysWithin (hv : v.WellFormed) (hw : ∀ s ∈ p, s.fits = true)
    (hs : (View.root v).staysWithin p = true) (ht : targets limit absent v p = .ok ls)
    (hl : l ∈ ls) : v.hosts l = true := by
  cases mem_targets ht hl
  case inl h => exact h.2 ▸ rfl
  case inr h =>
    obtain ⟨q, s, hp, u, hu, hl⟩ := h
    subst hp
    obtain ⟨hq, hs⟩ := View.staysWithin_append.mp hs
    obtain ⟨hwq, _⟩ := List.forall_mem_append.mp hw
    have hf := (View.faithful_of_origin_eq_none rfl).expand hv (View.Within.root v) hq hwq hu
    exact ((View.Within.root v).expand hu).hosts_of_faithful hf
      (View.staysWithin_cons.mp (hs u hu)).1 hl

-- All new keys have the name that the path ends with.
theorem getLast?_eq_of_hosts (hv : v.WellFormed) (hw : ∀ s ∈ p, s.fits = true)
    (ht : targets limit absent v p = .ok ls) (hh : ∀ l ∈ ls, v.hosts l = true) (hl : l ∈ ls)
    (hm : m ∈ ls) (hnl : v.at? l = none) (hnm : v.at? m = none) : l.getLast? = m.getLast? := by
  have last {q : Path} {s : Segment} {u : View} {l : Location} (hp : p = q ++ [s])
      (hu : u ∈ (View.root v).expand q) (hl : l ∈ u.locations s absent) (hh : v.hosts l = true)
      (hn : v.at? l = none) : ∃ name r, s = .key name r ∧ l.getLast? = some (.key name) := by
    subst hp
    obtain ⟨hq, hs⟩ := List.forall_mem_append.mp hw
    exact ((View.Within.root v).expand hu).eq_key_of_hosts hv
      ((View.counted_root v).expand (View.Within.root v) hq hu) (hs s (by simp)) hl hh hn
  cases mem_targets ht hl
  case inl h => simp [h.2, Json.at?_nil] at hnl
  case inr h =>
    cases mem_targets ht hm
    case inl h => simp [h.2, Json.at?_nil] at hnm
    case inr h' =>
      obtain ⟨q, s, hp, u, hu, hl'⟩ := h
      obtain ⟨q', s', hp', u', hu', hm'⟩ := h'
      obtain ⟨name, _, es, el⟩ := last hp hu hl' (hh l hl) hnl
      obtain ⟨name', _, es', em⟩ := last hp' hu' hm' (hh m hm) hnm
      obtain ⟨_, e⟩ := List.append_inj' (hp.symm.trans hp') rfl
      simp_all

theorem write_of_targets (ha : ∀ s ∈ p, s.isAddressable = true)
    (ht : targets o.maxDepth true v p = .ok ls) (hne : ls ≠ []) :
    p.write o creating op v x = (ls.mapM (writeChange op v x)).bind (Change.applyAll v) := by
  have he : ls.isEmpty = false := by simpa using hne
  simp only [write, ensureAddressable_eq_ok ha, ht, bind, Except.bind, he]
  rfl

-- The changes of a write, in any order.
theorem applyAll_writeChange (hv : v.WellFormed) (hf : op.Makes x f)
    (hl : ∀ l ∈ ls, ∀ m ∈ ls, m.length = l.length) (hh : ∀ l ∈ ls, v.hosts l = true) :
    (ls.mapM (writeChange op v x)).bind (Change.applyAll v) = .ok (v.overwrite f ls) := by
  have h := Json.applyFrom_changeAt_overwrite (f := f) 0 [] hv hl hh
  rw [Json.overwrite_nil] at h
  rw [hf.mapM_writeChange]
  exact h

theorem applyAll_writeChange_of_beyond (hv : v.WellFormed) (hf : op.Makes x f)
    (hl : ∀ l ∈ ls, ∀ m ∈ ls, m.length = l.length)
    (hh : ∀ l ∈ ls, v.hosts l = true ∨ v.Beyond l) (hb : ∃ l ∈ ls, v.hosts l = false) :
    ∃ n l, (ls.mapM (writeChange op v x)).bind (Change.applyAll v) = .error (.unappliable n l) := by
  obtain ⟨n, l, _, _, h⟩ := Json.applyFrom_changeAt_of_beyond (f := f) 0 [] hv hl hh hb
  rw [Json.overwrite_nil] at h
  rw [hf.mapM_writeChange]
  exact ⟨n, l, h⟩

-- A write is one simultaneous update of all locations of its path. Its changes are applied one after
-- another, but they do not see each other, and in another order they come to the same document. One
-- that cannot be applied is to a location that can take no value, and only a slice that leads out of
-- its array leads there.
theorem write_simultaneous (o : Options) (creating : Bool) (op : Operation) (x : Json)
    (hv : v.WellFormed) (ha : ∀ s ∈ p, s.isAddressable = true) (hw : ∀ s ∈ p, s.fits = true)
    (ht : targets o.maxDepth true v p = .ok ls) (hne : ls ≠ []) :
    ((∃ r, p.write o creating op v x = .ok r) ↔
      (∀ l ∈ ls, v.hosts l = true) ∧ ∃ f, op.Makes x f) ∧
    (∀ r, p.write o creating op v x = .ok r → ∃ f, op.Makes x f ∧ r = v.overwrite f ls ∧
      Json.Updated f ls v r ∧ ∀ ms, ls.Perm ms →
        (ms.mapM (writeChange op v x)).bind (Change.applyAll v) = .ok r) ∧
    ((∃ n l, p.write o creating op v x = .error (.unappliable n l)) ↔
      (∃ l ∈ ls, v.hosts l = false) ∧ ∃ f, op.Makes x f) ∧
    ((View.root v).staysWithin p = true → ∀ l ∈ ls, v.hosts l = true) := by
  have hlen : ∀ l ∈ ls, ∀ m ∈ ls, m.length = l.length := fun l hl m hm =>
    length_eq_of_mem_targets ht hl hm
  have hhosts : (View.root v).staysWithin p = true → ∀ l ∈ ls, v.hosts l = true := fun hs l hl =>
    hosts_of_staysWithin hv hw hs ht hl
  rw [write_of_targets ha ht hne]
  cases op.makes_or_error x
  case inr he =>
    have hn : ¬∃ f, op.Makes x f := not_exists.mpr fun f hf => by simpa [he] using hf none
    rw [Operation.mapM_writeChange_eq_error he hne]
    exact ⟨by simp [Except.bind, hn], by simp [Except.bind], by simp [Except.bind, hn], hhosts⟩
  case inl hf =>
    obtain ⟨f, hf⟩ := hf
    by_cases hh : ∀ l ∈ ls, v.hosts l = true
    case pos =>
      have hok := applyAll_writeChange hv hf hlen hh
      have hnb : ¬∃ l ∈ ls, v.hosts l = false := by simpa using hh
      refine ⟨⟨fun _ => ⟨hh, f, hf⟩, fun _ => ⟨_, hok⟩⟩, fun r hr => ?_, ?_, hhosts⟩
      case refine_1 =>
        have e : r = v.overwrite f ls := Except.ok.inj (hr.symm.trans hok)
        subst e
        refine ⟨f, hf, rfl, Json.updated_overwrite hlen hh, fun ms hp => ?_⟩
        have hlen' : ∀ l ∈ ms, ∀ m ∈ ms, m.length = l.length := fun l hl m hm =>
          hlen l (hp.mem_iff.mpr hl) m (hp.mem_iff.mpr hm)
        rw [applyAll_writeChange hv hf hlen' fun l hl => hh l (hp.mem_iff.mpr hl)]
        exact congrArg Except.ok (Json.overwrite_congr hv (fun _ => hp.mem_iff)
          fun l hl m hm => getLast?_eq_of_hosts hv hw ht hh hl hm).symm
      case refine_2 => simp [hok, hnb]
    case neg =>
      have hb : ∃ l ∈ ls, v.hosts l = false := by simpa using hh
      obtain ⟨n, l, he⟩ := applyAll_writeChange_of_beyond hv hf hlen
        (fun l hl => hosts_or_beyond hv hw ht hl) hb
      refine ⟨?_, fun r hr => ?_, ?_, hhosts⟩
      case refine_1 => simp [he, hh]
      case refine_2 => simp [he] at hr
      case refine_3 => exact ⟨fun _ => ⟨hb, f, hf⟩, fun _ => ⟨n, l, he⟩⟩

theorem write_simultaneous_slice :
    let v : Json := .obj [("a", .arr [.int 0, .null, .int 2]), ("b", .null)]
    let p : Path := [.key "a" false, .slice ⟨none, none, some (-2)⟩]
    ∃ r f, p.write .default true .append v (.int 9) = .ok r ∧
      Operation.append.Makes (.int 9) f ∧
      Json.Updated f [[.key "a", .index 2], [.key "a", .index 0]] v r := by
  intro v p
  have hv : v.WellFormed := by
    simp [v, Json.WellFormed, Json.WellFormedMembers, Json.WellFormedItems, Json.int, Members.keys]
  have ht : targets Options.default.maxDepth true v p =
      .ok [[.key "a", .index 2], [.key "a", .index 0]] := by rfl
  obtain ⟨h, h', _, hs⟩ := write_simultaneous .default true .append (.int 9) hv (p := p) (by decide)
    (by decide) ht (by simp)
  obtain ⟨r, hr⟩ := h.mpr ⟨hs (by decide), _, fun _ => rfl⟩
  obtain ⟨f, hf, _, hu, _⟩ := h' r hr
  exact ⟨r, f, hr, hf, hu⟩

end Path

end JsonQuery
