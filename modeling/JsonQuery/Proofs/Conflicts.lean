import JsonQuery.Proofs.Padding

namespace JsonQuery

namespace Flat

variable {separator : Char} {limit maxPadding depth : Nat} {above head key : List Char}
  {rest? : Option (List Char)} {entries es : List (List Char × Json)} {v : Json} {e : Error}
  {groups : List Group} {m : Option (List Char) × Json} {ms : List (Option (List Char) × Json)}

-- Whether some key goes on behind these segments, and with which one.
def Follows (separator : Char) (keys : List (List Char)) (l : List (List Char))
    (head : List Char) : Prop :=
  ∃ key ∈ keys, l ++ [head] <+: key.splitOn separator

-- Segments all of which are indices, where one of them takes an array with more elements than can be
-- counted.
def Uncountable (heads : List Char → Prop) : Prop :=
  (∀ head, heads head → (arrayIndex? head).isSome) ∧
    ∃ head i, heads head ∧ arrayIndex? head = some i ∧ 0x8000000000000000 ≤ i + 1

-- The key that is cut into these parts.
def uncut (separator : Char) (head : List Char) : Option (List Char) → List Char
  | none      => head
  | some rest => head ++ separator :: rest

theorem cutKey_eq_iff :
    cutKey separator key = (head, rest?) ↔ separator ∉ head ∧ key = uncut separator head rest? := by
  constructor
  case mp =>
    intro h
    rcases cutKey_cases separator key with ⟨hk, e⟩ | ⟨head', rest, hh, e, ec⟩
    case inl =>
      cases e.symm.trans h
      exact ⟨hk, rfl⟩
    case inr =>
      cases ec.symm.trans h
      exact ⟨hh, e⟩
  case mpr =>
    rintro ⟨hh, rfl⟩
    cases rest? with
    | none      => exact cutKey_eq_none separator hh
    | some rest => exact cutKey_append separator hh rest

theorem cutEntry_eq {e : List Char × Json} (hh : separator ∉ head)
    (hk : e.1 = uncut separator head rest?) : cutEntry separator e = (head, rest?, e.2) := by
  rw [cutEntry, cutKey_eq_iff.mpr ⟨hh, hk⟩]

theorem exists_entry (hg : (head, ms) ∈ group separator entries) :
    ∃ e ∈ entries, ∃ m, cutEntry separator e = (head, m) := by
  obtain ⟨m, hm⟩ := List.exists_mem_of_ne_nil ms ((heads_group separator entries).2 _ hg)
  obtain ⟨e, he, hc⟩ := List.mem_map.mp ((mem_of_mem_group hg).mp hm)
  exact ⟨e, he, m, hc⟩

theorem not_mem_head (hg : (head, ms) ∈ group separator entries) : separator ∉ head := by
  obtain ⟨_, _, _, hc⟩ := exists_entry hg
  exact (splitOn_of_cutEntry hc).1

-- A group has the rests of all keys that begin with its head.
theorem mem_rests_iff (hg : (head, ms) ∈ group separator entries) :
    rest? ∈ ms.map (·.1) ↔ uncut separator head rest? ∈ entries.map (·.1) := by
  simp only [List.mem_map]
  constructor
  case mp =>
    rintro ⟨m, hm, rfl⟩
    obtain ⟨e, he, hc⟩ := List.mem_map.mp ((mem_of_mem_group hg).mp hm)
    have hk : cutKey separator e.1 = (head, m.1) := congrArg (fun c => (c.1, c.2.1)) hc
    exact ⟨e, he, (cutKey_eq_iff.mp hk).2⟩
  case mpr =>
    rintro ⟨e, he, hk⟩
    have hc := cutEntry_eq (not_mem_head hg) hk
    exact ⟨(rest?, e.2), (mem_of_mem_group hg).mpr (List.mem_map.mpr ⟨e, he, hc⟩), rfl⟩

theorem mem_longer_iff (hg : (head, ms) ∈ group separator entries) :
    key ∈ ms.filterMap (·.1) ↔ head ++ separator :: key ∈ entries.map (·.1) := by
  rw [← uncut, ← mem_rests_iff hg, List.mem_filterMap, List.mem_map]

theorem longer_of_entries (es : List (List Char × Json)) :
    (es.map fun e => (some e.1, e.2)).filterMap (·.1) = es.map (·.1) := by
  simp [List.filterMap_map]

-- What the limits have to allow so that they do not matter.
structure Allowed (separator : Char) (maxPadding limit depth : Nat)
    (entries : List (List Char × Json)) : Prop where
  level   : depth ≤ limit
  depth   : ∀ e ∈ entries, depth + e.1.count separator ≤ limit
  padding : ∀ e ∈ entries, ∀ segment ∈ e.1.splitOn separator,
    ∀ i ∈ arrayIndex? segment, i ≤ maxPadding

namespace Allowed

theorem nested (h : Allowed separator maxPadding limit depth entries)
    (hg : (head, es.map fun e => (some e.1, e.2)) ∈ group separator entries) :
    Allowed separator maxPadding limit (depth + 1) es := by
  have mem {e} (he : e ∈ es) : ∃ e' ∈ entries, e'.1 = head ++ separator :: e.1 := by
    have hr := (mem_longer_iff hg).mp (longer_of_entries es ▸ List.mem_map_of_mem he)
    simpa using hr
  have depth {e} (he : e ∈ es) : depth + 1 + e.1.count separator ≤ limit := by
    obtain ⟨e', he', hk⟩ := mem he
    have := h.depth e' he'
    simp only [hk, List.count_append, List.count_cons_self] at this
    omega
  refine ⟨?_, fun e => depth, fun e he segment hs => ?_⟩
  · have hne := (heads_group separator entries).2 _ hg
    obtain ⟨e, he⟩ := List.exists_mem_of_ne_nil es (by simpa using hne)
    have := depth he
    omega
  · obtain ⟨e', he', hk⟩ := mem he
    refine h.padding e' he' segment ?_
    rw [hk, List.splitOn_append_cons_self_of_not_mem (not_mem_head hg)]
    exact List.mem_cons_of_mem _ hs

theorem head_le (h : Allowed separator maxPadding limit depth entries)
    (hg : (head, ms) ∈ group separator entries) {i : Nat} (hi : arrayIndex? head = some i) :
    i ≤ maxPadding := by
  obtain ⟨e, he, m, hc⟩ := exists_entry hg
  exact h.padding e he head (by simp [(splitOn_of_cutEntry hc).2.2]) i hi

-- An array whose indices are allowed as numbers of nulls takes no more nulls than that. All that it
-- can be is too long.
theorem assemble (h : Allowed separator maxPadding limit depth entries) (above : List Char)
    {children : List (List Char × Json)}
    (hc : children.map (·.1) = (group separator entries).map (·.1))
    (he : assemble maxPadding above children = .error e) :
    (∃ length, e = .tooLong length) ∧ Uncountable (· ∈ (group separator entries).map (·.1)) := by
  rcases assemble_cases maxPadding above children with ⟨first, others, hseg, hlt, ha⟩ | ⟨_, ha⟩
  case inr => cases ha.symm.trans he
  case inl =>
    rw [hc] at hseg
    have index {i} (hi : i ∈ first :: others) :
        Nat.toDigits 10 i ∈ (group separator entries).map (·.1) ∧
          arrayIndex? (Nat.toDigits 10 i) = some i :=
      ⟨hseg ▸ List.mem_map_of_mem hi, arrayIndex?_eq_some_iff.mpr ⟨rfl, hlt i hi⟩⟩
    obtain ⟨hhead, hmax⟩ := index (foldl_max_eq_iff.mp rfl).1
    obtain ⟨g, hg, hgm⟩ := List.mem_map.mp hhead
    have hle := h.head_le hg (hgm ▸ hmax)
    have hpadding : ¬ maxPadding < others.foldl max first - others.length := by omega
    simp only [ha, assembleArray, hpadding, if_false] at he
    split at he
    case isFalse => cases he
    case isTrue hlong =>
      refine ⟨⟨_, (Except.error.inj he).symm⟩, fun head hh => ?_, _, _, hhead, hmax, hlong⟩
      obtain ⟨i, hi, rfl⟩ := List.mem_map.mp (hseg ▸ hh)
      exact (index hi).2 ▸ rfl

end Allowed

variable {flat other : List (String × Json)}

end Flat

namespace Json

variable {o : Options} {flat other : List (String × Json)} {v : Json} {e : Error}

end Json

end JsonQuery
