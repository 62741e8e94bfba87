import Mathlib.Data.List.Induction
import Mathlib.Data.List.Nodup
import Mathlib.Data.List.TakeWhile
import Mathlib.Tactic.Tauto
import JsonQuery.Flat.Unflatten
import JsonQuery.Proofs.Run

namespace JsonQuery.Flat

variable {separator : Char} {key head rest path : List Char} {x : Json}
  {rest? : Option (List Char)} {groups : List Group} {entries : List (List Char × Json)}
  {ms : List (Option (List Char) × Json)} {m : Option (List Char) × Json}

section

variable (separator)

theorem cutKey_eq_none (h : separator ∉ key) : cutKey separator key = (key, none) := by
  have hd : key.dropWhile (· != separator) = [] :=
    List.dropWhile_eq_nil_iff.mpr fun c hc => by
      simpa using fun e : c = separator => h (e ▸ hc)
  simp [cutKey, hd]

theorem cutKey_append (h : separator ∉ head) (rest : List Char) :
    cutKey separator (head ++ separator :: rest) = (head, some rest) := by
  have ht : ∀ c ∈ head, (c != separator) = true := by
    intro c hc
    simpa using fun e : c = separator => h (e ▸ hc)
  have hd : (head ++ separator :: rest).dropWhile (· != separator) = separator :: rest := by
    rw [List.dropWhile_append_of_pos ht]
    simp
  have htake : (head ++ separator :: rest).takeWhile (· != separator) = head := by
    rw [List.takeWhile_append_of_pos ht]
    simp
  simp [cutKey, hd, htake]

end

-- A key has no separator, or it is cut at its first one.
theorem cutKey_cases (separator : Char) (key : List Char) :
    (separator ∉ key ∧ cutKey separator key = (key, none)) ∨
    ∃ head rest, separator ∉ head ∧ key = head ++ separator :: rest ∧
      cutKey separator key = (head, some rest) := by
  by_cases h : separator ∈ key
  case neg => exact .inl ⟨h, cutKey_eq_none separator h⟩
  case pos =>
    obtain ⟨head, rest, e, hh⟩ := List.eq_append_cons_of_mem h
    exact .inr ⟨head, rest, hh, e, by rw [e, cutKey_append separator hh]⟩

theorem splitOn_of_cutKey (h : cutKey separator key = (head, rest?)) :
    separator ∉ head ∧ key.splitOn separator =
      head :: rest?.elim [] (·.splitOn separator) := by
  rcases cutKey_cases separator key with ⟨hk, e⟩ | ⟨head', rest, hh, e, ec⟩
  case inl =>
    cases e.symm.trans h
    exact ⟨hk, List.splitOn_eq_singleton hk⟩
  case inr =>
    cases ec.symm.trans h
    exact ⟨hh, by rw [e, List.splitOn_append_cons_self_of_not_mem hh]; rfl⟩

theorem addTo_of_not_mem (h : head ∉ groups.map (·.1)) :
    addTo groups head m = groups ++ [(head, [m])] := by
  induction groups with
  | nil => rfl
  | cons g groups ih =>
    obtain ⟨hg, hr⟩ : head ≠ g.1 ∧ head ∉ groups.map (·.1) := by simpa using h
    obtain ⟨h', ms⟩ := g
    simp [addTo, Ne.symm hg, ih hr]

theorem addTo_append (h : head ∉ groups.map (·.1)) :
    addTo (groups ++ [(head, ms)]) head m = groups ++ [(head, ms ++ [m])] := by
  induction groups with
  | nil => simp [addTo]
  | cons g groups ih =>
    obtain ⟨hg, hr⟩ : head ≠ g.1 ∧ head ∉ groups.map (·.1) := by simpa using h
    obtain ⟨h', ms'⟩ := g
    simp [addTo, Ne.symm hg, ih hr]

-- Members of one group that follow one another.
theorem foldl_addTo (h : head ∉ groups.map (·.1)) (hm : ms ≠ []) :
    ms.foldl (fun groups m => addTo groups head m) groups = groups ++ [(head, ms)] := by
  induction ms using List.reverseRecOn with
  | nil => exact absurd rfl hm
  | append_singleton ms m ih =>
    rw [List.foldl_append]
    by_cases hms : ms = []
    case pos =>
      subst hms
      exact addTo_of_not_mem h
    case neg =>
      rw [ih hms]
      exact addTo_append h

-- What an entry of a flat map says about the first segment of its key.
def cutEntry (separator : Char) (e : List Char × Json) :
    List Char × Option (List Char) × Json :=
  ((cutKey separator e.1).1, (cutKey separator e.1).2, e.2)

theorem splitOn_of_cutEntry {e : List Char × Json} (h : cutEntry separator e = (head, rest?, x)) :
    separator ∉ head ∧ e.2 = x ∧
      e.1.splitOn separator = head :: rest?.elim [] (·.splitOn separator) := by
  cases h
  have hc : cutKey separator e.1 = ((cutKey separator e.1).1, (cutKey separator e.1).2) := rfl
  obtain ⟨hh, hs⟩ := splitOn_of_cutKey hc
  exact ⟨hh, rfl, hs⟩

theorem group_eq (separator : Char) (entries : List (List Char × Json)) : group separator entries =
    (entries.map (cutEntry separator)).foldl (fun groups c => addTo groups c.1 c.2) [] := by
  rw [List.foldl_map]
  rfl

theorem foldl_parts {parts : List Group} (hn : ((groups ++ parts).map (·.1)).Nodup)
    (hm : ∀ g ∈ parts, g.2 ≠ []) :
    (parts.flatMap fun g => g.2.map (g.1, ·)).foldl (fun groups c => addTo groups c.1 c.2) groups =
      groups ++ parts := by
  induction parts generalizing groups with
  | nil => simp
  | cons g parts ih =>
    obtain ⟨hg, hr⟩ := List.forall_mem_cons.mp hm
    have hmem : g.1 ∉ groups.map (·.1) := fun h => by
      rw [List.map_append, List.nodup_append] at hn
      exact hn.2.2 g.1 h g.1 (by simp) rfl
    rw [List.flatMap_cons, List.foldl_append, List.foldl_map, foldl_addTo hmem hg,
      ih (by simpa using hn) hr]
    simp

-- Entries that come group by group are grouped as they come.
theorem group_of_parts {parts : List Group} (hn : (parts.map (·.1)).Nodup)
    (hm : ∀ g ∈ parts, g.2 ≠ [])
    (he : entries.map (cutEntry separator) = parts.flatMap fun g => g.2.map (g.1, ·)) :
    group separator entries = parts := by
  have hn : (([] ++ parts : List Group).map (·.1)).Nodup := hn
  rw [group_eq, he, foldl_parts hn hm, List.nil_append]

-- Whether there is a group of this head with this member.
def Lists (groups : List Group) (head : List Char) (m : Option (List Char) × Json) : Prop :=
  ∃ ms, (head, ms) ∈ groups ∧ m ∈ ms

variable {head' : List Char} {m' : Option (List Char) × Json}

theorem lists_cons :
    Lists ((head', ms) :: groups) head m ↔ head = head' ∧ m ∈ ms ∨ Lists groups head m := by
  simp only [Lists, List.mem_cons, Prod.mk.injEq]
  constructor
  case mp =>
    rintro ⟨ms', h | h, hm⟩
    case inl => exact .inl ⟨h.1, h.2 ▸ hm⟩
    case inr => exact .inr ⟨ms', h, hm⟩
  case mpr =>
    rintro (⟨e, hm⟩ | ⟨ms', h, hm⟩)
    case inl => exact ⟨ms, .inl ⟨e, rfl⟩, hm⟩
    case inr => exact ⟨ms', .inr h, hm⟩

theorem lists_addTo :
    Lists (addTo groups head m) head' m' ↔ Lists groups head' m' ∨ head' = head ∧ m' = m := by
  induction groups with
  | nil => simp [Lists, addTo]
  | cons g groups ih =>
    obtain ⟨h, ms⟩ := g
    by_cases e : h = head
    case pos =>
      subst e
      simp only [addTo, if_true, lists_cons, List.mem_append, List.mem_singleton]
      tauto
    case neg =>
      simp only [addTo, e, if_false, lists_cons, ih]
      tauto

theorem heads_addTo : (addTo groups head m).map (·.1) =
    if head ∈ groups.map (·.1) then groups.map (·.1) else groups.map (·.1) ++ [head] := by
  split
  case isFalse h => simp [addTo_of_not_mem h]
  case isTrue h =>
    induction groups with
    | nil => simp at h
    | cons g groups ih =>
      obtain ⟨h', ms⟩ := g
      by_cases e : h' = head
      case pos => simp [addTo, e]
      case neg =>
        have hr : head ∈ groups.map (·.1) := by simpa [Ne.symm e] using h
        simpa [addTo, e] using ih hr

theorem ne_nil_of_mem_addTo (h : ∀ g ∈ groups, g.2 ≠ []) :
    ∀ g ∈ addTo groups head m, g.2 ≠ [] := by
  induction groups with
  | nil => simp [addTo]
  | cons g groups ih =>
    obtain ⟨h', ms⟩ := g
    obtain ⟨hg, hr⟩ := List.forall_mem_cons.mp h
    by_cases e : h' = head
    case pos =>
      rw [addTo, if_pos e]
      exact List.forall_mem_cons.mpr ⟨by simp, hr⟩
    case neg =>
      rw [addTo, if_neg e]
      exact List.forall_mem_cons.mpr ⟨hg, ih hr⟩

-- Every group stands for one head, and has members.
theorem heads_group (separator : Char) (entries : List (List Char × Json)) :
    ((group separator entries).map (·.1)).Nodup ∧ ∀ g ∈ group separator entries, g.2 ≠ [] := by
  rw [group_eq]
  induction entries.map (cutEntry separator) using List.reverseRecOn with
  | nil => simp
  | append_singleton cs c ih =>
    rw [List.foldl_append, List.foldl_cons, List.foldl_nil, heads_addTo]
    refine ⟨?_, ne_nil_of_mem_addTo ih.2⟩
    split
    case isTrue  => exact ih.1
    case isFalse h =>
      exact List.nodup_append.mpr ⟨ih.1, by simp, fun a ha b hb e =>
        h (List.mem_singleton.mp hb ▸ e ▸ ha)⟩

-- The groups list what the entries say, and nothing else.
theorem lists_group : Lists (group separator entries) head m ↔
    (head, m) ∈ entries.map (cutEntry separator) := by
  rw [group_eq]
  induction entries.map (cutEntry separator) using List.reverseRecOn with
  | nil => simp [Lists]
  | append_singleton cs c ih =>
    rw [List.foldl_append, List.foldl_cons, List.foldl_nil, lists_addTo, ih, List.mem_append,
      List.mem_singleton]
    simp only [Prod.ext_iff]

theorem mem_of_mem_group (h : (head, ms) ∈ group separator entries) :
    m ∈ ms ↔ (head, m) ∈ entries.map (cutEntry separator) := by
  rw [← lists_group]
  refine ⟨fun hm => ⟨ms, h, hm⟩, fun ⟨ms', h', hm⟩ => ?_⟩
  have e := List.inj_on_of_nodup_map (heads_group separator entries).1 h h' rfl
  cases e
  exact hm

variable {e : List Char × Json} {tail : List (List Char)}

-- A group has a member for every entry that begins with its head, and no others.
theorem member_of_entry (hg : (head, ms) ∈ group separator entries) (he : e ∈ entries)
    (hs : e.1.splitOn separator = head :: tail) :
    ∃ m ∈ ms, e.2 = m.2 ∧ tail = m.1.elim [] (·.splitOn separator) := by
  rcases hc : cutEntry separator e with ⟨head', rest?, x⟩
  obtain ⟨_, hx, hsplit⟩ := splitOn_of_cutEntry hc
  obtain ⟨rfl, rfl⟩ := List.cons.inj (hs.symm.trans hsplit)
  exact ⟨(rest?, x), (mem_of_mem_group hg).mpr (List.mem_map.mpr ⟨e, he, hc⟩), hx, rfl⟩

theorem entry_of_member (hg : (head, ms) ∈ group separator entries) (hm : m ∈ ms) :
    ∃ e ∈ entries, e.1.splitOn separator = head :: m.1.elim [] (·.splitOn separator) := by
  obtain ⟨e, he, hc⟩ := List.mem_map.mp ((mem_of_mem_group hg).mp hm)
  exact ⟨e, he, (splitOn_of_cutEntry hc).2.2⟩

theorem head_of_entry (separator : Char) (he : e ∈ entries) :
    ∃ head tail, e.1.splitOn separator = head :: tail ∧
      head ∈ (group separator entries).map (·.1) := by
  have hc : cutEntry separator e = ((cutKey separator e.1).1, (cutKey separator e.1).2, e.2) := rfl
  obtain ⟨ms, hg, _⟩ := lists_group.mpr (List.mem_map.mpr ⟨e, he, hc⟩)
  exact ⟨_, _, (splitOn_of_cutEntry hc).2.2, List.mem_map.mpr ⟨_, hg, rfl⟩⟩

variable {nested : List (List Char × Json) → Except Error Json}

theorem member_some (entries : List (List Char × Json)) :
    member path (entries.map fun e => (some e.1, e.2)) nested = nested entries := by
  have hany : (entries.map fun e => (some e.1, e.2)).any (fun m => m.1.isNone) = false := by simp
  have hsome : ((entries.map fun e => (some e.1, e.2)).filterMap fun m => m.1.map (·, m.2)) =
      entries := by
    simp [List.filterMap_map]
  unfold member
  split
  case _ h =>
    cases entries <;> simp at h
  case _ => rw [hany, hsome]; rfl

-- A group is one value without a rest, or it has a value and more, or all of its members have rests.
theorem member_cases (path : List Char) (ms : List (Option (List Char) × Json))
    (nested : List (List Char × Json) → Except Error Json) :
    (∃ x, ms = [(none, x)] ∧ member path ms nested = .ok x) ∨
    (1 < ms.length ∧ none ∈ ms.map (·.1) ∧
      member path ms nested = .error (.valueAndPrefix (String.ofList path))) ∨
    ∃ es, ms = es.map (fun e => (some e.1, e.2)) ∧ member path ms nested = nested es := by
  unfold member
  split
  case _ leaf => exact .inl ⟨leaf, rfl, rfl⟩
  case _ hone =>
    split
    case isTrue hany =>
      obtain ⟨m, hm, hv⟩ := List.any_eq_true.mp hany
      have hv : m.1 = none := Option.isNone_iff_eq_none.mp hv
      refine .inr (.inl ⟨?_, hv ▸ List.mem_map_of_mem hm, rfl⟩)
      cases ms with
      | nil => cases hm
      | cons m' ms =>
        cases ms with
        | nil =>
          cases List.mem_singleton.mp hm
          exact absurd (by rw [← hv]) (hone m.2)
        | cons m'' ms => simp
    case isFalse hany =>
      refine .inr (.inr ⟨_, ?_, rfl⟩)
      rw [List.map_filterMap, eq_comm]
      refine (List.filterMap_eq_map_iff_forall_eq_some.mpr fun m hm => ?_).trans (List.map_id _)
      obtain ⟨rest, y⟩ := m
      cases rest with
      | none      => exact absurd (List.any_eq_true.mpr ⟨(none, y), hm, rfl⟩) hany
      | some rest => rfl

theorem member_eq_ok (h : member path ms nested = .ok x) : ms = [(none, x)] ∨
    ∃ es, ms = es.map (fun e => (some e.1, e.2)) ∧ nested es = .ok x := by
  rcases member_cases path ms nested with ⟨y, e, hy⟩ | ⟨_, _, herr⟩ | ⟨es, e, hes⟩
  case inl =>
    cases hy.symm.trans h
    exact .inl e
  case inr.inl => cases herr.symm.trans h
  case inr.inr => exact .inr ⟨es, e, hes.symm.trans h⟩

end JsonQuery.Flat
