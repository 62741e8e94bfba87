import JsonQuery.Proofs.Below

namespace JsonQuery

namespace Json

-- The key that an object gets if a new value comes to a location.
def newKey? (ms : List (String × Json)) : Location → Option String
  | [.key k] => if Members.contains ms k then none else some k
  | _        => none

def newKeys (ms : List (String × Json)) (ls : List Location) : List String :=
  (ls.filterMap (newKey? ms)).eraseDups

mutual

-- The document with new values at some locations. Every new value is computed from the old one, if
-- there is one, and a key that an object does not have is added at its end.
def overwrite (f : Option Json → Json) (ls : List Location) : Json → Json
  | arr items => if [] ∈ ls then f (some (arr items)) else arr (overwriteItems f ls 0 items)
  | obj ms =>
    if [] ∈ ls then f (some (obj ms))
    else obj (overwriteMembers f ls ms ++ (newKeys ms ls).map fun k => (k, f none))
  | v => if [] ∈ ls then f (some v) else v

def overwriteItems (f : Option Json → Json) (ls : List Location) : Nat → List Json → List Json
  | _, [] => []
  | i, x :: rest => overwrite f (Location.below (.index i) ls) x :: overwriteItems f ls (i + 1) rest

def overwriteMembers (f : Option Json → Json) (ls : List Location) :
    List (String × Json) → List (String × Json)
  | [] => []
  | (k, x) :: rest => (k, overwrite f (Location.below (.key k) ls) x) :: overwriteMembers f ls rest

end

variable {f : Option Json → Json} {ls : List Location} {v : Json} {items : List Json}
  {ms : List (String × Json)} {s : Step} {l : Location} {k : String}

theorem overwrite_of_mem (h : [] ∈ ls) : v.overwrite f ls = f (some v) := by
  cases v <;> simp [overwrite, h]

theorem overwriteItems_eq (i : Nat) : overwriteItems f ls i items =
    items.mapIdx fun j x => x.overwrite f (Location.below (.index (i + j)) ls) := by
  induction items generalizing i with
  | nil => rfl
  | cons x rest ih => simp [overwriteItems, ih, Nat.add_assoc, Nat.add_comm 1]

theorem overwriteMembers_eq : overwriteMembers f ls ms =
    Members.mapValues (fun k x => x.overwrite f (Location.below (.key k) ls)) ms := by
  induction ms with
  | nil => rfl
  | cons m rest ih => simp [overwriteMembers, Members.mapValues, ih]

theorem overwrite_arr (h : [] ∉ ls) : (arr items).overwrite f ls =
    arr (items.mapIdx fun i x => x.overwrite f (Location.below (.index i) ls)) := by
  simp [overwrite, h, overwriteItems_eq]

theorem overwrite_obj (h : [] ∉ ls) : (obj ms).overwrite f ls =
    obj (Members.mapValues (fun k x => x.overwrite f (Location.below (.key k) ls)) ms ++
      (newKeys ms ls).map fun k => (k, f none)) := by
  simp [overwrite, h, overwriteMembers_eq]

-- Without locations nothing changes.
theorem overwrite_nil (v : Json) : v.overwrite f [] = v := by
  induction v using childInduction with
  | scalar v h => cases v <;> first | rfl | cases h
  | arr items ih =>
    rw [overwrite_arr List.not_mem_nil]
    exact congrArg arr (List.ext_getElem (by simp) fun i _ _ => by simp [Location.below, ih])
  | obj ms ih =>
    have e : Members.mapValues (fun k x => x.overwrite f (Location.below (.key k) [])) ms = ms :=
      (Members.mapValues_congr fun k x hm => ih (k, x) hm).trans Members.mapValues_id
    rw [overwrite_obj List.not_mem_nil, e]
    simp [newKeys]

-- Whether a write can put a value at a location: there is one, or an object takes its last key.
def hosts (v : Json) : Location → Bool
  | []        => true
  | s :: rest =>
    match v.child? s with
    | some c => c.hosts rest
    | none   =>
      match v, s, rest with
      | obj _, .key _, [] => true
      | _, _, _           => false

theorem hosts_cons {c : Json} (hc : v.child? s = some c) : v.hosts (s :: l) = c.hosts l := by
  simp [hosts, hc]

theorem hosts_append {c : Json} (hc : v.at? l = some c) (m : Location) :
    v.hosts (l ++ m) = c.hosts m := by
  induction l generalizing v with
  | nil => cases hc; rfl
  | cons s l ih =>
    rw [at?_cons] at hc
    obtain ⟨d, hd, hc⟩ := Option.bind_eq_some_iff.mp hc
    rw [List.cons_append, hosts_cons hd, ih hc]

theorem hosts_of_at? {c : Json} (hc : v.at? l = some c) : v.hosts l = true := by
  simpa [hosts] using hosts_append hc []

theorem hosts_key : (obj ms).hosts [.key k] = true := by
  cases hc : (obj ms).child? (.key k) <;> simp [hosts, hc]

-- A location that hosts a value without a child on the way is a new key.
theorem eq_key_of_hosts (hc : v.child? s = none) (h : v.hosts (s :: l) = true) :
    l = [] ∧ ∃ ms k, v = obj ms ∧ s = .key k ∧ k ∉ Members.keys ms := by
  simp only [hosts, hc] at h
  split at h
  case _ ms k =>
    exact ⟨rfl, ms, k, rfl, rfl, Members.get?_eq_none_iff.mp hc⟩
  case _ => cases h

theorem child?_overwrite {c : Json} (h : [] ∉ ls) (hc : v.child? s = some c) :
    (v.overwrite f ls).child? s = some (c.overwrite f (Location.below s ls)) := by
  cases v <;> cases s <;> simp only [child?, reduceCtorEq] at hc
  case arr.index items i => simp [overwrite_arr h, child?, hc]
  case obj.key ms k => simp [overwrite_obj h, child?, Members.get?_append, Members.get?_mapValues, hc]

theorem newKey?_eq_some_iff : newKey? ms l = some k ↔ l = [.key k] ∧ k ∉ Members.keys ms := by
  rw [← Members.contains_iff_mem_keys]
  cases l with
  | nil => simp [newKey?]
  | cons s rest =>
    cases s with
    | index i => simp [newKey?]
    | key j =>
      cases rest with
      | cons t rest => simp [newKey?]
      | nil =>
        simp only [newKey?]
        split <;> simp_all <;> grind

theorem newKeys_congr {ls' : List Location} (h : ∀ l, l ∈ ls ↔ l ∈ ls')
    (hk : ∀ l ∈ ls, ∀ m ∈ ls, ∀ j k, newKey? ms l = some j → newKey? ms m = some k → j = k) :
    newKeys ms ls = newKeys ms ls' := by
  have hmem : ∀ k, k ∈ ls.filterMap (newKey? ms) ↔ k ∈ ls'.filterMap (newKey? ms) := by
    simp [List.mem_filterMap, h]
  have hall : ∀ j ∈ ls.filterMap (newKey? ms), ∀ k ∈ ls.filterMap (newKey? ms), j = k := by
    intro j hj k hk'
    obtain ⟨l, hl, hj⟩ := List.mem_filterMap.mp hj
    obtain ⟨m, hm, hk'⟩ := List.mem_filterMap.mp hk'
    exact hk l hl m hm j k hj hk'
  have single {ks : List String} {k : String} (h : ∀ j ∈ ks, j = k) (hk : k ∈ ks) :
      ks.eraseDups = [k] := by
    cases ks with
    | nil => simp at hk
    | cons j rest =>
      obtain ⟨hj, hr⟩ := List.forall_mem_cons.mp h
      subst hj
      have : rest.filter (fun x => !x == j) = [] :=
        List.filter_eq_nil_iff.mpr fun x hx => by simp [hr x hx]
      simp [List.eraseDups_cons, this]
  simp only [newKeys]
  cases hks : ls.filterMap (newKey? ms) with
  | nil =>
    have : ls'.filterMap (newKey? ms) = [] :=
      List.eq_nil_iff_forall_not_mem.mpr fun k hk => by simpa [hks] using (hmem k).mpr hk
    rw [this]
  | cons k rest =>
    have hk : k ∈ ls.filterMap (newKey? ms) := by simp [hks]
    rw [← hks, single (fun j hj => hall j hj k hk) hk,
      single (fun j hj => hall j ((hmem j).mpr hj) k hk) ((hmem k).mp hk)]

theorem getLast?_eq_of_mem_below {c : Json} (hc : v.child? s = some c)
    (hk : ∀ l ∈ ls, ∀ m ∈ ls, v.at? l = none → v.at? m = none → l.getLast? = m.getLast?) :
    ∀ l ∈ Location.below s ls, ∀ m ∈ Location.below s ls, c.at? l = none → c.at? m = none →
      l.getLast? = m.getLast? := by
  intro l hl m hm ha ha'
  have h := hk _ (Location.mem_below.mp hl) _ (Location.mem_below.mp hm) (by simp [at?_cons, hc, ha])
    (by simp [at?_cons, hc, ha'])
  cases l with
  | nil => cases ha
  | cons _ _ =>
    cases m with
    | nil => cases ha'
    | cons _ _ => simpa [List.getLast?_cons_cons] using h

-- The order of the locations does not matter as long as no object gets two keys.
theorem overwrite_congr {ls' : List Location} (hv : v.WellFormed) (h : ∀ l, l ∈ ls ↔ l ∈ ls')
    (hk : ∀ l ∈ ls, ∀ m ∈ ls, v.at? l = none → v.at? m = none → l.getLast? = m.getLast?) :
    v.overwrite f ls = v.overwrite f ls' := by
  induction v using childInduction generalizing ls ls' with
  | scalar v hs => cases v <;> simp_all [overwrite, isContainer]
  | arr items ih =>
    by_cases hn : [] ∈ ls
    case pos => rw [overwrite_of_mem hn, overwrite_of_mem ((h _).mp hn)]
    case neg =>
      rw [overwrite_arr hn, overwrite_arr fun hn' => hn ((h _).mpr hn')]
      refine congrArg arr (List.ext_getElem (by simp) fun i hi _ => ?_)
      have hi : i < items.length := by simpa using hi
      have hc : (arr items).child? (.index i) = some items[i] := by simp [child?, hi]
      simpa using ih items[i] (List.getElem_mem hi) (hv.child? hc)
        (fun _ => Location.mem_below_congr h) (getLast?_eq_of_mem_below hc hk)
  | obj ms ih =>
    by_cases hn : [] ∈ ls
    case pos => rw [overwrite_of_mem hn, overwrite_of_mem ((h _).mp hn)]
    case neg =>
      have hnew : newKeys ms ls = newKeys ms ls' := by
        refine newKeys_congr h fun l hl m hm j k hj hk' => ?_
        obtain ⟨el, hj⟩ := newKey?_eq_some_iff.mp hj
        obtain ⟨em, hk'⟩ := newKey?_eq_some_iff.mp hk'
        subst el em
        have absent {k : String} (hk : k ∉ Members.keys ms) : (obj ms).at? [.key k] = none := by
          rw [at?_cons, child?, Members.get?_eq_none_iff.mpr hk]
          rfl
        simpa using hk _ hl _ hm (absent ‹_›) (absent ‹_›)
      have hold : Members.mapValues (fun k x => x.overwrite f (Location.below (.key k) ls)) ms =
          Members.mapValues (fun k x => x.overwrite f (Location.below (.key k) ls')) ms := by
        refine Members.mapValues_congr fun k x hm => ?_
        have hc : (obj ms).child? (.key k) = some x := Members.get?_of_mem hv.keys_nodup hm
        exact ih (k, x) hm (hv.child? hc) (fun _ => Location.mem_below_congr h)
          (getLast?_eq_of_mem_below hc hk)
      rw [overwrite_obj hn, overwrite_obj fun hn' => hn ((h _).mpr hn'), hnew, hold]

theorem mem_newKeys : k ∈ newKeys ms ls ↔ [.key k] ∈ ls ∧ k ∉ Members.keys ms := by
  simp only [newKeys, List.mem_eraseDups, List.mem_filterMap, newKey?_eq_some_iff]
  constructor
  case mp =>
    rintro ⟨l, hl, e, hk⟩
    exact ⟨e ▸ hl, hk⟩
  case mpr => exact fun h => ⟨_, h.1, rfl, h.2⟩

theorem child?_overwrite_eq_none (h : [] ∉ ls) (hc : v.child? s = none) (hs : [s] ∉ ls) :
    (v.overwrite f ls).child? s = none := by
  cases v
  case arr items =>
    rw [overwrite_arr h]
    cases s <;> simp_all [child?]
  case obj ms =>
    rw [overwrite_obj h]
    cases s with
    | index i => rfl
    | key k =>
      have hk : k ∉ newKeys ms ls := fun hk => hs (mem_newKeys.mp hk).1
      have hc : k ∉ Members.keys ms := Members.get?_eq_none_iff.mp hc
      rw [child?, Members.get?_eq_none_iff]
      simp [hk, hc]
  all_goals simp_all [overwrite]

-- The children of a container stay in their places, and new keys come behind them.
theorem steps_overwrite (h : [] ∉ ls) : ∃ new, (v.overwrite f ls).steps = v.steps ++ new ∧
    ∀ s ∈ new, [s] ∈ ls ∧ v.child? s = none := by
  cases v
  case arr items => exact ⟨[], by simp [overwrite_arr h, steps], by simp⟩
  case obj ms =>
    refine ⟨(newKeys ms ls).map .key, by simp [overwrite_obj h, steps], fun s hs => ?_⟩
    obtain ⟨k, hk, e⟩ := List.mem_map.mp hs
    obtain ⟨hl, hk⟩ := mem_newKeys.mp hk
    exact e ▸ ⟨hl, Members.get?_eq_none_iff.mpr hk⟩
  all_goals exact ⟨[], by simp [overwrite, h, steps], by simp⟩

theorem kind_overwrite (h : [] ∉ ls) : (v.overwrite f ls).kind = v.kind := by
  cases v <;> simp [overwrite, h, kind]

-- What happens to the value at a location that is not below any of the new values.
theorem at?_overwrite {m : Location} {c : Json} (hc : v.at? m = some c)
    (h : ∀ l ∈ ls, l <+: m → l = m) :
    (v.overwrite f ls).at? m = some (c.overwrite f (Location.beneath m ls)) := by
  induction m generalizing v ls with
  | nil => cases hc; rfl
  | cons s m ih =>
    rw [at?_cons] at hc
    obtain ⟨d, hd, hc⟩ := Option.bind_eq_some_iff.mp hc
    have hn : [] ∉ ls := fun hn => by simpa using h [] hn List.nil_prefix
    rw [at?_cons, child?_overwrite hn hd, Option.bind_some]
    refine ih hc fun l hl hp => ?_
    exact (List.cons.inj (h (s :: l) (Location.mem_below.mp hl) (by simpa using hp))).2

theorem at?_overwrite_of_apart {m : Location} (h : ∀ l ∈ ls, ¬ l <+: m ∧ ¬ m <+: l) :
    (v.overwrite f ls).at? m = v.at? m := by
  induction m generalizing v ls with
  | nil =>
    have hn : ls = [] := List.eq_nil_iff_forall_not_mem.mpr fun l hl => (h l hl).2 List.nil_prefix
    rw [hn, overwrite_nil]
  | cons s m ih =>
    have hn : [] ∉ ls := fun hn => (h [] hn).1 List.nil_prefix
    rw [at?_cons, at?_cons]
    cases hc : v.child? s with
    | none =>
      have hs : [s] ∉ ls := fun hs => (h [s] hs).1 (by simp)
      rw [child?_overwrite_eq_none hn hc hs]
    | some c =>
      rw [child?_overwrite hn hc, Option.bind_some, Option.bind_some]
      exact ih fun l hl => by simpa using h (s :: l) (Location.mem_below.mp hl)

-- A location that hosts a value but has none is that of a new key.
theorem eq_snoc_of_hosts (h : v.hosts l = true) (hn : v.at? l = none) :
    ∃ m k ms, l = m ++ [.key k] ∧ v.at? m = some (obj ms) ∧ k ∉ Members.keys ms := by
  induction l generalizing v with
  | nil => cases hn
  | cons s rest ih =>
    cases hc : v.child? s with
    | none =>
      obtain ⟨hr, ms, k, hv, hs, hk⟩ := eq_key_of_hosts hc h
      exact ⟨[], k, ms, by simp [hr, hs], by rw [at?_nil, hv], hk⟩
    | some c =>
      rw [at?_cons, hc, Option.bind_some] at hn
      obtain ⟨m, k, ms, e, hm, hk⟩ := ih (by rwa [← hosts_cons hc]) hn
      exact ⟨s :: m, k, ms, by simp [e], by simp [at?_cons, hc, hm], hk⟩

-- A document `r` that has new values at some locations of `v` and differs in nothing else. The
-- values do not depend on one another.
structure Updated (f : Option Json → Json) (ls : List Location) (v r : Json) : Prop where
  holds : ∀ l ∈ ls, r.at? l = some (f (v.at? l))
  apart : ∀ m, (∀ l ∈ ls, ¬ l <+: m ∧ ¬ m <+: l) → r.at? m = v.at? m
  above : ∀ m c, v.at? m = some c → (∀ l ∈ ls, ¬ l <+: m) → ∃ d new, r.at? m = some d ∧
    d.kind = c.kind ∧ d.steps = c.steps ++ new ∧ ∀ s ∈ new, m ++ [s] ∈ ls ∧ c.child? s = none

theorem updated_overwrite (hl : ∀ l ∈ ls, ∀ m ∈ ls, m.length = l.length)
    (hh : ∀ l ∈ ls, v.hosts l = true) : Updated f ls v (v.overwrite f ls) where
  holds := by
    intro l hm
    have hp : ∀ m ∈ ls, m <+: l → m = l := fun m hm' hp => hp.eq_of_length (hl l hm m hm')
    cases hc : v.at? l with
    | some c =>
      rw [at?_overwrite hc hp, overwrite_of_mem (Location.mem_beneath.mpr (by simpa using hm))]
    | none =>
      obtain ⟨m, k, ms, e, hms, hk⟩ := eq_snoc_of_hosts (hh l hm) hc
      subst e
      have short : ∀ l ∈ ls, ¬ l <+: m := fun l hl' hp => by
        have := hp.length_le
        have := hl l hl' _ hm
        simp at this
        omega
      have hn : [] ∉ Location.beneath m ls := fun hn =>
        short m (by simpa using Location.mem_beneath.mp hn) List.prefix_rfl
      have hk' : k ∈ newKeys ms (Location.beneath m ls) :=
        mem_newKeys.mpr ⟨Location.mem_beneath.mpr hm, hk⟩
      rw [at?_snoc, at?_overwrite hms fun l hl hp => absurd hp (short l hl), overwrite_obj hn,
        Option.bind_some, child?, Members.get?_append, Members.get?_eq_none_iff.mpr (by simpa using hk),
        Members.get?_map_pair hk']
      rfl
  apart _ h := at?_overwrite_of_apart h
  above m c hc h := by
    have hn : [] ∉ Location.beneath m ls := fun hn =>
      h m (by simpa using Location.mem_beneath.mp hn) List.prefix_rfl
    obtain ⟨new, hs, hnew⟩ := steps_overwrite (f := f) (v := c) hn
    exact ⟨_, new, at?_overwrite hc fun l hl hp => absurd hp (h l hl), kind_overwrite hn, hs,
      fun s hm => ⟨Location.mem_beneath.mp (hnew s hm).1, (hnew s hm).2⟩⟩

end Json

end JsonQuery
