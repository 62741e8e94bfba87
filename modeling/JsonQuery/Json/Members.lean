namespace JsonQuery

-- The members of an object in their order. An object of a document has every key once, so what
-- these functions do with a second member of the same key is never seen.
abbrev Members (α : Type) := List (String × α)

namespace Members

variable {α β : Type}

def keys (ms : Members α) : List String := ms.map (·.1)

def get? (ms : Members α) (key : String) : Option α :=
  match ms with
  | [] => none
  | (k, v) :: rest => if k = key then some v else get? rest key

def contains (ms : Members α) (key : String) : Bool := (ms.get? key).isSome

-- A key that is there keeps its place and takes the new value. A new key comes last.
def insert (ms : Members α) (key : String) (value : α) : Members α :=
  match ms with
  | [] => [(key, value)]
  | (k, v) :: rest => if k = key then (k, value) :: rest else (k, v) :: insert rest key value

-- The last member moves into the place of the removed one.
def remove (ms : Members α) (key : String) : Members α :=
  match ms with
  | [] => []
  | (k, v) :: rest =>
    if k = key then
      match rest.getLast? with
      | some last => last :: rest.dropLast
      | none      => []
    else
      (k, v) :: remove rest key

-- The same keys with other values.
def mapValues (f : String → α → β) (ms : Members α) : Members β := ms.map fun (k, v) => (k, f k v)

-- The object with these members written one after another: a repeated key keeps its first place
-- and its last value.
def ofList (entries : List (String × α)) : Members α :=
  entries.foldl (fun ms (k, v) => insert ms k v) []

variable {ms ns : Members α} {key other : String} {value : α}

@[simp]
theorem get?_nil : get? ([] : Members α) key = none :=
  rfl

theorem contains_iff_mem_keys : ms.contains key = true ↔ key ∈ ms.keys := by
  simp only [contains]
  induction ms with
  | nil => simp [keys]
  | cons m rest ih =>
    obtain ⟨k, v⟩ := m
    by_cases h : k = key
    · simp [get?, keys, h]
    · simp only [get?, h, if_false, ih]
      simp [keys, Ne.symm h]

theorem get?_insert_self : (ms.insert key value).get? key = some value := by
  induction ms with
  | nil => simp [insert, get?]
  | cons m rest ih =>
    obtain ⟨k, v⟩ := m
    by_cases h : k = key <;> simp [insert, get?, h, ih]

theorem get?_insert_of_ne (h : key ≠ other) : (ms.insert key value).get? other = ms.get? other := by
  induction ms with
  | nil => simp [insert, get?, h]
  | cons m rest ih =>
    obtain ⟨k, v⟩ := m
    by_cases hk : k = key
    · subst hk
      simp [insert, get?, h]
    · simp [insert, get?, hk, ih]

-- Only a new key changes the keys, and it becomes the last of them.
theorem keys_insert :
    (ms.insert key value).keys = if key ∈ ms.keys then ms.keys else ms.keys ++ [key] := by
  induction ms with
  | nil => simp [insert, keys]
  | cons m rest ih =>
    obtain ⟨k, v⟩ := m
    simp only [keys] at ih ⊢
    by_cases hk : k = key
    · simp [insert, hk]
    · have hk' : key ≠ k := fun h => hk h.symm
      simp only [insert, hk, if_false, List.map_cons, ih, List.mem_cons, hk', false_or]
      split <;> simp [*]

theorem keys_nodup_insert (h : ms.keys.Nodup) : (ms.insert key value).keys.Nodup := by
  rw [keys_insert]
  split
  case isTrue => exact h
  case isFalse hk =>
    rw [List.nodup_append]
    refine ⟨h, by simp, ?_⟩
    intro a ha b hb
    simp only [List.mem_singleton] at hb
    rintro rfl
    exact hk (hb ▸ ha)

theorem keys_cons (m : String × α) (ms : Members α) : keys (m :: ms) = m.1 :: ms.keys := rfl

@[simp]
theorem keys_append : keys (ms ++ ns) = ms.keys ++ ns.keys := by
  simp [keys]

@[simp]
theorem keys_mapValues (f : String → α → β) : (ms.mapValues f).keys = ms.keys := by
  simp [keys, mapValues, Function.comp_def]

@[simp]
theorem keys_map_pair (ks : List String) : keys (ks.map fun k => (k, value)) = ks := by
  simp [keys, Function.comp_def]

theorem get?_eq_none_iff : ms.get? key = none ↔ key ∉ ms.keys := by
  rw [← contains_iff_mem_keys, contains]
  simp

theorem mem_keys_of_get? (h : ms.get? key = some value) : key ∈ ms.keys := by
  rw [← contains_iff_mem_keys, contains, h]
  rfl

theorem mem_of_get? (h : ms.get? key = some value) : (key, value) ∈ ms := by
  induction ms with
  | nil => simp at h
  | cons m rest ih =>
    obtain ⟨k, v⟩ := m
    by_cases hk : k = key
    case pos => simp_all [get?]
    case neg => exact List.mem_cons_of_mem _ (ih (by simpa [get?, hk] using h))

theorem get?_of_mem (hn : ms.keys.Nodup) (h : (key, value) ∈ ms) : ms.get? key = some value := by
  induction ms with
  | nil => simp at h
  | cons m rest ih =>
    obtain ⟨k, v⟩ := m
    simp only [keys, List.map_cons, List.nodup_cons] at hn
    cases List.mem_cons.mp h
    case inl h =>
      cases h
      simp [get?]
    case inr h =>
      have hk : k ≠ key := fun e => hn.1 (e ▸ List.mem_map.mpr ⟨_, h, rfl⟩)
      simp [get?, hk, ih hn.2 h]

theorem get?_append : (ms ++ ns : Members α).get? key = (ms.get? key).or (ns.get? key) := by
  induction ms with
  | nil => simp
  | cons m rest ih =>
    obtain ⟨k, v⟩ := m
    by_cases hk : k = key <;> simp [get?, hk, ih]

theorem get?_mapValues (f : String → α → β) :
    (ms.mapValues f).get? key = (ms.get? key).map (f key) := by
  induction ms with
  | nil => rfl
  | cons m rest ih =>
    obtain ⟨k, v⟩ := m
    simp only [mapValues] at ih
    by_cases hk : k = key
    case pos => simp [mapValues, get?, hk]
    case neg => simp [mapValues, get?, hk, ih]

theorem mapValues_congr {f g : String → α → β} (h : ∀ k v, (k, v) ∈ ms → f k v = g k v) :
    ms.mapValues f = ms.mapValues g :=
  List.map_congr_left fun m hm => congrArg _ (h m.1 m.2 hm)

theorem mapValues_id : (ms.mapValues fun _ v => v) = ms :=
  List.map_id ms

theorem get?_map_pair {ks : List String} (h : key ∈ ks) :
    get? (ks.map fun k => (k, value)) key = some value := by
  induction ks with
  | nil => simp at h
  | cons k rest ih =>
    by_cases hk : k = key
    case pos => simp [get?, hk]
    case neg =>
      have hr : key ∈ rest := by simpa [Ne.symm hk] using h
      simp [get?, hk, ih hr]

theorem insert_of_not_mem (h : key ∉ ms.keys) : ms.insert key value = ms ++ [(key, value)] := by
  induction ms with
  | nil => rfl
  | cons m rest ih =>
    obtain ⟨k, v⟩ := m
    obtain ⟨hk, hr⟩ : key ≠ k ∧ key ∉ keys rest := by simpa [keys] using h
    simp [insert, Ne.symm hk, ih hr]

theorem foldl_insert (acc : Members α) (hn : (keys (acc ++ ms)).Nodup) :
    ms.foldl (fun ms m => insert ms m.1 m.2) acc = acc ++ ms := by
  induction ms generalizing acc with
  | nil => simp
  | cons m rest ih =>
    have hk : m.1 ∉ keys acc := fun hk => by
      rw [keys_append, List.nodup_append] at hn
      exact hn.2.2 m.1 hk m.1 (by simp [keys]) rfl
    rw [List.foldl_cons, insert_of_not_mem hk, ih _ (by simpa using hn)]
    simp

theorem ofList_of_nodup (hn : ms.keys.Nodup) : ofList ms = ms :=
  foldl_insert [] hn

theorem insert_append_of_mem (h : key ∈ ms.keys) :
    insert (ms ++ ns) key value = ms.insert key value ++ ns := by
  induction ms with
  | nil => simp [keys] at h
  | cons m rest ih =>
    obtain ⟨k, v⟩ := m
    by_cases hk : k = key
    case pos => simp [insert, hk]
    case neg =>
      have hr : key ∈ keys rest := by simpa [keys, Ne.symm hk] using h
      simp [insert, hk, ih hr]

-- A new value under a key that is there changes this one member.
theorem insert_mapValues {f g : String → α → β} {new : β} (hn : ms.keys.Nodup)
    (hm : ms.get? key = some value) (hg : g key value = new)
    (h : ∀ k v, k ≠ key → f k v = g k v) :
    (ms.mapValues f).insert key new = ms.mapValues g := by
  subst hg
  induction ms with
  | nil => simp at hm
  | cons m rest ih =>
    obtain ⟨k, v⟩ := m
    simp only [keys, List.map_cons, List.nodup_cons] at hn
    by_cases hk : k = key
    case pos =>
      have hv : v = value := by simpa [get?, hk] using hm
      have hr : mapValues f rest = mapValues g rest := mapValues_congr fun k' v' hm =>
        h k' v' fun e => hn.1 (List.mem_map.mpr ⟨_, hm, e.trans hk.symm⟩)
      simp only [mapValues] at hr
      simp [mapValues, insert, hk, hv, hr]
    case neg =>
      have hm : get? rest key = some value := by simpa [get?, hk] using hm
      have hr := ih hn.2 hm
      simp only [mapValues] at hr
      simp [mapValues, insert, hk, h k v hk, hr]

theorem insert_self (h : ms.get? key = some value) : ms.insert key value = ms := by
  induction ms with
  | nil => simp at h
  | cons m rest ih =>
    obtain ⟨k, v⟩ := m
    by_cases hk : k = key
    case pos => simp_all [get?, insert]
    case neg => simp [insert, hk, ih (by simpa [get?, hk] using h)]

theorem insert_insert (old new : α) : (ms.insert key old).insert key new = ms.insert key new := by
  induction ms with
  | nil => simp [insert]
  | cons m rest ih =>
    obtain ⟨k, v⟩ := m
    by_cases hk : k = key <;> simp [insert, hk, ih]

theorem get?_eq_some_iff (hn : ms.keys.Nodup) : ms.get? key = some value ↔ (key, value) ∈ ms :=
  ⟨mem_of_get?, get?_of_mem hn⟩

-- The order of the members does not matter for their values.
theorem get?_perm (h : ms.Perm ns) (hn : ms.keys.Nodup) : ms.get? key = ns.get? key := by
  have hn' : ns.keys.Nodup := (h.map _).nodup_iff.mp hn
  ext value
  rw [get?_eq_some_iff hn, get?_eq_some_iff hn', h.mem_iff]

theorem keys_nodup_filter (hn : ms.keys.Nodup) (f : String × α → Bool) :
    (keys (ms.filter f)).Nodup :=
  hn.sublist (List.filter_sublist.map _)

theorem get?_filter (f : String → Bool) :
    get? (ms.filter fun m => f m.1) key = if f key then ms.get? key else none := by
  induction ms with
  | nil => simp
  | cons m rest ih =>
    obtain ⟨k, v⟩ := m
    by_cases hk : k = key
    case pos =>
      subst hk
      cases hf : f k <;> simp [get?, hf, ih]
    case neg => cases hf : f k <;> simp [get?, hf, hk, ih]

-- The last member that moves is no other than those that are there.
theorem remove_perm (hn : ms.keys.Nodup) : (ms.remove key).Perm (ms.filter (·.1 ≠ key)) := by
  induction ms with
  | nil => exact .refl _
  | cons m rest ih =>
    obtain ⟨k, v⟩ := m
    simp only [keys, List.map_cons, List.nodup_cons] at hn
    by_cases hk : k = key
    case pos =>
      have hr : rest.filter (·.1 ≠ key) = rest := List.filter_eq_self.mpr fun m hm => by
        simpa using fun e => hn.1 (List.mem_map.mpr ⟨m, hm, e.trans hk.symm⟩)
      simp only [remove, hk, if_true, List.filter_cons, ne_eq, not_true_eq_false, decide_false]
      rw [hr]
      cases hl : rest.getLast? with
      | none => simp [List.getLast?_eq_none_iff.mp hl]
      | some last =>
        obtain ⟨front, e⟩ := List.getLast?_eq_some_iff.mp hl
        simpa [e] using (List.perm_append_singleton last front).symm
    case neg => simpa [remove, hk] using ih hn.2

theorem keys_nodup_remove (hn : ms.keys.Nodup) : (ms.remove key).keys.Nodup :=
  ((remove_perm hn).map _).nodup_iff.mpr (keys_nodup_filter hn _)

theorem get?_remove (hn : ms.keys.Nodup) :
    (ms.remove key).get? other = if other = key then none else ms.get? other := by
  rw [get?_perm (remove_perm hn) (keys_nodup_remove hn), get?_filter fun k => k ≠ key]
  by_cases h : other = key <;> simp [h]

theorem get?_foldl_remove {ks : List String} (hn : ms.keys.Nodup) :
    get? (ks.foldl remove ms) key = if key ∈ ks then none else ms.get? key := by
  induction ks generalizing ms with
  | nil => simp
  | cons k rest ih =>
    rw [List.foldl_cons, ih (keys_nodup_remove hn), get?_remove hn]
    by_cases h : key = k <;> simp [h]

end Members

end JsonQuery
