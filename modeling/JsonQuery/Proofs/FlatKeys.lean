import JsonQuery.Flat.Flatten
import JsonQuery.Number.Integer
import JsonQuery.Proofs.Preorder

namespace JsonQuery

namespace Location

variable {separator : Char} {l : Location} {s : Step}

-- The texts of the steps of a location.
def segments (l : Location) : List (List Char) := l.map (·.text.toList)

-- The key of a location in a flat map.
def flatKey (separator : Char) (l : Location) : String :=
  String.ofList ([separator].intercalate l.segments)

@[simp]
theorem segments_nil : segments [] = [] :=
  rfl

@[simp]
theorem segments_cons : segments (s :: l) = s.text.toList :: l.segments :=
  rfl

theorem toList_flatKey_cons (hl : l ≠ []) :
    (flatKey separator (s :: l)).toList =
      s.text.toList ++ separator :: (l.flatKey separator).toList := by
  cases l with
  | nil       => exact absurd rfl hl
  | cons t l' => simp [flatKey, List.intercalate]

theorem flatKey_singleton : flatKey separator [s] = s.text := by
  simp [flatKey, List.intercalate]

-- One more step adds a segment to the key.
theorem flatKey_snoc (hl : l ≠ []) :
    flatKey separator (l ++ [s]) = Json.flatKey separator (some (l.flatKey separator)) s.text := by
  induction l with
  | nil => exact absurd rfl hl
  | cons t l ih =>
    rw [← String.toList_inj]
    cases l with
    | nil =>
      simp [toList_flatKey_cons, flatKey_singleton, Json.flatKey]
    | cons u l =>
      have ih := congrArg String.toList (ih (by simp))
      rw [List.cons_append, toList_flatKey_cons (by simp), ih]
      simp [toList_flatKey_cons, Json.flatKey]

-- Segments without separators are what the key is made of.
theorem splitOn_flatKey (hl : l ≠ []) (h : ∀ s ∈ l, separator ∉ s.text.toList) :
    (l.flatKey separator).toList.splitOn separator = l.segments := by
  rw [flatKey, String.toList_ofList]
  refine List.splitOn_intercalate separator (fun t ht => ?_) (by simpa [segments] using hl)
  obtain ⟨s, hs, rfl⟩ := List.mem_map.mp ht
  exact h s hs

theorem flatKey_of_segments {key : String} (h : l.segments = key.toList.splitOn separator) :
    l.flatKey separator = key := by
  rw [flatKey, h, List.intercalate_splitOn, String.ofList_toList]

end Location

namespace Json

variable {separator : Char} {above : Option String} {v c d x y : Json} {s t : Step}
  {l m : Location}

-- A scalar or an empty container.
def isLeaf : Json → Bool
  | arr (_ :: _) | obj (_ :: _) => false
  | _ => true

-- The leaves of a document in order, with their locations.
def placedLeaves (v : Json) : List (Location × Json) := (v.preorder []).filter (·.2.isLeaf)

-- No step of a document has a separator in its text.
def Separable (separator : Char) (v : Json) : Prop :=
  ∀ l c, v.at? l = some c → ∀ s ∈ l, separator ∉ s.text.toList

theorem isLeaf_iff : v.isLeaf = true ↔ v.children = [] := by
  cases v
  case arr items => cases items <;> simp [isLeaf, children]
  case obj ms    => cases ms <;> simp [isLeaf, children]
  all_goals simp [isLeaf, children]

theorem child?_of_isLeaf (h : v.isLeaf = true) (s : Step) : v.child? s = none := by
  cases hc : v.child? s with
  | none   => rfl
  | some c => simpa [isLeaf_iff.mp h] using mem_children_of_child? hc

theorem at?_of_isLeaf (h : v.isLeaf = true) (hl : v.at? l = some x) : l = [] ∧ x = v := by
  cases l with
  | nil      => exact ⟨rfl, (Option.some.inj hl).symm⟩
  | cons s l =>
    rw [at?_cons, child?_of_isLeaf h] at hl
    cases hl

theorem distinct_of_isLeaf (h : v.isLeaf = true) : v.Distinct := by
  intro l c hc
  obtain ⟨_, rfl⟩ := at?_of_isLeaf h hc
  rw [← map_children, isLeaf_iff.mp h]
  exact List.nodup_nil

theorem separable_of_isLeaf (h : v.isLeaf = true) : v.Separable separator := by
  intro l c hc
  obtain ⟨rfl, _⟩ := at?_of_isLeaf h hc
  simp

-- The leaves of a value are those of its children.
theorem leaves_eq (separator : Char) (above : Option String) (v : Json) :
    v.leaves separator above =
      if v.isLeaf then above.toList.map (·, v)
      else v.children.flatMap fun m => m.2.leaves separator (flatKey separator above m.1.text) := by
  have items (xs : List Json) (i : Nat) : leavesOfItems separator above i xs =
      (xs.mapIdx fun j x => (Step.index (i + j), x)).flatMap fun m =>
        m.2.leaves separator (flatKey separator above m.1.text) := by
    induction xs generalizing i with
    | nil => rfl
    | cons x rest ih =>
      simp [leavesOfItems, ih, Step.text, List.mapIdx_cons, Nat.add_assoc, Nat.add_comm 1]
  have members (ms : List (String × Json)) : leavesOfMembers separator above ms =
      (ms.map fun m => (Step.key m.1, m.2)).flatMap fun m =>
        m.2.leaves separator (flatKey separator above m.1.text) := by
    induction ms with
    | nil => rfl
    | cons m rest ih => simp [leavesOfMembers, ih, Step.text]
  cases v
  case arr xs => cases xs <;> cases above <;> simp [leaves, children, isLeaf, items]
  case obj ms => cases ms <;> cases above <;> simp [leaves, children, isLeaf, members]
  all_goals cases above <;> simp [leaves, isLeaf]

theorem placedLeaves_of_isLeaf (hv : v.isLeaf = true) : v.placedLeaves = [([], v)] := by
  rw [placedLeaves, preorder_eq, isLeaf_iff.mp hv]
  simp [hv]

theorem placedLeaves_eq (hv : v.isLeaf = false) : v.placedLeaves =
    v.children.flatMap fun m => m.2.placedLeaves.map fun n => (m.1 :: n.1, n.2) := by
  rw [placedLeaves, preorder_eq, List.filter_cons, List.filter_flatMap]
  simp only [hv, Bool.false_eq_true, if_false]
  refine List.flatMap_congr fun m _ => ?_
  rw [List.nil_append, ← List.append_nil [m.1], preorder_append, List.filter_map]
  rfl

theorem placedLeaves_ne_nil (v : Json) : v.placedLeaves ≠ [] := by
  induction v using inductionOnChildren with
  | h v ih =>
    cases hv : v.isLeaf
    case true  => simp [placedLeaves_of_isLeaf hv]
    case false =>
      obtain ⟨m, hm⟩ : ∃ m, m ∈ v.children :=
        List.exists_mem_of_ne_nil _ fun e => by simp [isLeaf_iff.mpr e] at hv
      rw [placedLeaves_eq hv, Ne, List.flatMap_eq_nil_iff]
      exact fun h => ih m.1 m.2 hm (List.map_eq_nil_iff.mp (h m hm))

theorem leaves_of_location (hl : l ≠ []) (v : Json) :
    v.leaves separator (some (l.flatKey separator)) =
      v.placedLeaves.map fun n => ((l ++ n.1).flatKey separator, n.2) := by
  induction v using inductionOnChildren generalizing l with
  | h v ih =>
    rw [leaves_eq]
    cases hv : v.isLeaf
    case true  => simp [placedLeaves_of_isLeaf hv]
    case false =>
      simp only [Bool.false_eq_true, if_false, placedLeaves_eq hv, List.map_flatMap]
      refine List.flatMap_congr fun m hm => ?_
      rw [← Location.flatKey_snoc hl, ih m.1 m.2 hm (by simp)]
      simp

theorem leaves_eq_placedLeaves (hv : v.isLeaf = false) : v.leaves separator none =
    v.placedLeaves.map fun n => (n.1.flatKey separator, n.2) := by
  rw [leaves_eq, placedLeaves_eq hv, List.map_flatMap]
  simp only [hv, Bool.false_eq_true, if_false]
  refine List.flatMap_congr fun m hm => ?_
  have e : flatKey separator none m.1.text = Location.flatKey separator [m.1] :=
    Location.flatKey_singleton.symm
  rw [e, leaves_of_location (by simp)]
  simp

theorem mem_placedLeaves (hd : v.Distinct) :
    (l, x) ∈ v.placedLeaves ↔ v.at? l = some x ∧ x.isLeaf = true := by
  simp [placedLeaves, List.mem_filter, mem_preorder hd]

theorem nodup_placedLeaves (hd : v.Distinct) : (v.placedLeaves.map (·.1)).Nodup :=
  (nodup_preorder hd).sublist (List.filter_sublist.map _)

-- The children of a value have different texts.
theorem eq_of_text (hs : v.child? s = some c) (ht : v.child? t = some d)
    (e : s.text.toList = t.text.toList) : s = t := by
  rw [String.toList_inj] at e
  cases v <;> cases s <;> cases t <;> simp only [child?, reduceCtorEq] at hs ht
  case arr.index.index items i j =>
    have e := congrArg (natural? ·.toList) e
    simp only [Step.text, Nat.toList_repr, natural?_toDigits, Option.some.injEq] at e
    rw [e]
  case obj.key.key ms k k' => exact congrArg Step.key e

-- Locations of one document are told apart by their segments.
theorem prefix_of_segments (hl : v.at? l = some x) (hm : v.at? m = some y)
    (h : l.segments <+: m.segments) : l <+: m := by
  induction l generalizing v m with
  | nil => exact List.nil_prefix
  | cons s l ih =>
    cases m with
    | nil => simp at h
    | cons t m =>
      rw [at?_cons] at hl hm
      obtain ⟨c, hc, hl⟩ := Option.bind_eq_some_iff.mp hl
      obtain ⟨d, hd, hm⟩ := Option.bind_eq_some_iff.mp hm
      rw [Location.segments_cons, Location.segments_cons, List.cons_prefix_cons] at h
      have e := eq_of_text hc hd h.1
      subst e
      cases hc.symm.trans hd
      exact List.cons_prefix_cons.mpr ⟨rfl, ih hl hm h.2⟩

theorem digits_of_index (i : Nat) : ∀ c ∈ (Step.index i).text.toList, c.isDigit = true :=
  fun c hc => Nat.isDigit_of_mem_toDigits (b := 10) (n := i) (by decide) (by decide)
    (by simpa [Step.text] using hc)

theorem not_mem_index_text (hd : separator.isDigit = false) (i : Nat) :
    separator ∉ (Step.index i).text.toList :=
  fun h => by simp [digits_of_index i separator h] at hd

theorem separable_of_keys (hd : separator.isDigit = false)
    (hk : ∀ l ms, v.at? l = some (.obj ms) → ∀ k ∈ Members.keys ms, separator ∉ k.toList) :
    v.Separable separator := by
  intro l c hc s hs
  obtain ⟨p, q, rfl⟩ := List.append_of_mem hs
  rw [at?_append] at hc
  obtain ⟨d, hp, hc⟩ := Option.bind_eq_some_iff.mp hc
  rw [at?_cons] at hc
  obtain ⟨e, he, _⟩ := Option.bind_eq_some_iff.mp hc
  cases s with
  | index i => exact not_mem_index_text hd i
  | key k   =>
    cases d <;> simp only [child?, reduceCtorEq] at he
    exact hk p _ hp k (Members.mem_keys_of_get? he)

theorem separable_of_child?
    (h : ∀ s c, v.child? s = some c → separator ∉ s.text.toList ∧ c.Separable separator) :
    v.Separable separator := by
  intro l c hc s hs
  cases l with
  | nil      => simp at hs
  | cons t l =>
    rw [at?_cons] at hc
    obtain ⟨d, hd, hc⟩ := Option.bind_eq_some_iff.mp hc
    rcases List.mem_cons.mp hs with rfl | hs
    · exact (h _ _ hd).1
    · exact (h t d hd).2 l c hc s hs

theorem Separable.child? (h : v.Separable separator) (hc : v.child? s = some c) :
    c.Separable separator :=
  fun l d hd t ht => h (s :: l) d (by simp [at?_cons, hc, hd]) t (List.mem_cons_of_mem s ht)

theorem Separable.text (h : v.Separable separator) (hc : v.child? s = some c) :
    separator ∉ s.text.toList :=
  h [s] c (by simp [at?, hc]) s List.mem_cons_self

theorem flatKey_inj (hs : v.Separable separator) (hl : v.at? l = some x) (hm : v.at? m = some y)
    (hl' : l ≠ []) (hm' : m ≠ []) (e : l.flatKey separator = m.flatKey separator) : l = m := by
  have e : l.segments = m.segments := by
    rw [← Location.splitOn_flatKey hl' (hs l x hl), e, Location.splitOn_flatKey hm' (hs m y hm)]
  exact (prefix_of_segments hl hm (e ▸ List.prefix_rfl)).eq_of_length
    (by simpa [Location.segments] using congrArg List.length e)

theorem ne_nil_of_mem_placedLeaves (hd : v.Distinct) (hv : v.isLeaf = false)
    (h : (l, x) ∈ v.placedLeaves) : l ≠ [] := by
  rintro rfl
  obtain ⟨e, hx⟩ := (mem_placedLeaves hd).mp h
  cases e
  simp [hv] at hx

theorem nodup_flatKeys (hd : v.Distinct) (hs : v.Separable separator) (hv : v.isLeaf = false) :
    (v.placedLeaves.map fun n => n.1.flatKey separator).Nodup := by
  refine List.pairwise_map.mpr ((List.pairwise_map.mp (nodup_placedLeaves hd)).imp_of_mem ?_)
  intro n n' hn hn' hne e
  have hl := (mem_placedLeaves hd).mp hn
  have hl' := (mem_placedLeaves hd).mp hn'
  exact hne (flatKey_inj hs hl.1 hl'.1 (ne_nil_of_mem_placedLeaves hd hv hn)
    (ne_nil_of_mem_placedLeaves hd hv hn') e)

theorem flatMembers_of_not_isLeaf (hv : v.isLeaf = false) : v.flatMembers separator =
    Members.ofList (v.placedLeaves.map fun n => (n.1.flatKey separator, n.2)) := by
  rw [← leaves_eq_placedLeaves hv]
  cases v
  case arr items => cases items <;> simp_all [isLeaf, flatMembers]
  case obj ms    => cases ms <;> simp_all [isLeaf, flatMembers]
  all_goals cases hv

-- A flat map has the leaves of its document in order, under the keys of their locations.
theorem flatMembers_eq (hd : v.Distinct) (hs : v.Separable separator) (hv : v.isLeaf = false) :
    v.flatMembers separator = v.placedLeaves.map fun n => (n.1.flatKey separator, n.2) := by
  rw [flatMembers_of_not_isLeaf hv, Members.ofList_of_nodup]
  simpa [Members.keys, Function.comp_def] using nodup_flatKeys hd hs hv

end Json

end JsonQuery
