import JsonQuery.Proofs.Assembling
import JsonQuery.Proofs.FlatKeys
import JsonQuery.Proofs.Grouping
import JsonQuery.Query

namespace JsonQuery

namespace Flat

variable {separator : Char} {limit maxPadding depth : Nat} {above path : List Char} {v c : Json}
  {s : Step} {nested : List (List Char × Json) → Except Error Json}

-- The leaves of a document under their keys.
def leafEntries (separator : Char) (v : Json) : List (List Char × Json) :=
  v.placedLeaves.map fun n => ((n.1.flatKey separator).toList, n.2)

-- What the entries of a document say about one of its children.
def part (separator : Char) (s : Step) (c : Json) : Group :=
  (s.text.toList,
    if c.isLeaf then [(none, c)] else (leafEntries separator c).map fun e => (some e.1, e.2))

theorem leafEntries_ne_nil (separator : Char) (v : Json) : leafEntries separator v ≠ [] := by
  simpa [leafEntries] using v.placedLeaves_ne_nil

theorem part_ne_nil (separator : Char) (s : Step) (c : Json) : (part separator s c).2 ≠ [] := by
  unfold part
  split
  case isTrue  => simp
  case isFalse => simpa using leafEntries_ne_nil separator c

theorem cutEntry_leafEntries (hd : c.Distinct) (hs : separator ∉ s.text.toList) :
    (c.placedLeaves.map fun n => ((Location.flatKey separator (s :: n.1)).toList, n.2)).map
      (cutEntry separator) = (part separator s c).2.map ((part separator s c).1, ·) := by
  cases hc : c.isLeaf
  case true =>
    simp [Json.placedLeaves_of_isLeaf hc, part, hc, Location.flatKey_singleton, cutEntry,
      cutKey_eq_none separator hs]
  case false =>
    simp only [part, hc, leafEntries, Bool.false_eq_true, if_false, List.map_map]
    refine List.map_congr_left fun n hn => ?_
    have hl := Json.ne_nil_of_mem_placedLeaves hd hc hn
    simp [cutEntry, Location.toList_flatKey_cons hl, cutKey_append separator hs]

-- The entries of a document fall apart into those of its children.
theorem group_leafEntries (hd : v.Distinct) (hs : v.Separable separator) (hv : v.isLeaf = false) :
    group separator (leafEntries separator v) = v.children.map fun m => part separator m.1 m.2 := by
  have child {m} (hm : m ∈ v.children) : v.child? m.1 = some m.2 :=
    Json.child?_of_mem_children hd.steps hm
  refine group_of_parts ?nodup ?nonempty ?cut
  case nodup =>
    have hn : (v.children.map (·.1)).Nodup := Json.map_children v ▸ hd.steps
    rw [List.map_map]
    refine List.pairwise_map.mpr ((List.pairwise_map.mp hn).imp_of_mem fun ha hb hne e => hne ?_)
    exact Json.eq_of_text (child ha) (child hb) e
  case nonempty =>
    rw [List.forall_mem_map]
    exact fun m _ => part_ne_nil separator m.1 m.2
  case cut =>
    rw [leafEntries, Json.placedLeaves_eq hv, List.map_flatMap, List.map_flatMap, List.flatMap_map]
    refine List.flatMap_congr fun m hm => ?_
    rw [← cutEntry_leafEntries (hd.child? (child hm)) (hs.text (child hm))]
    simp only [List.map_map, Function.comp_def]

theorem member_part (separator : Char) (s : Step) (c : Json) :
    member path (part separator s c).2 nested =
      if c.isLeaf then .ok c else nested (leafEntries separator c) := by
  unfold part
  split
  case isTrue  => rfl
  case isFalse => exact member_some _

-- The entries of a document are put together to the document. The induction is on the document,
-- and every level of it is one level of the depth.
theorem build_leafEntries (hw : v.WellFormed) (hs : v.Separable separator) (hv : v.isLeaf = false)
    (hk : ∀ l ms, v.at? l = some (.obj ms) → ms ≠ [] →
      ∃ k ∈ Members.keys ms, ∀ i < 0x10000000000000000, k ≠ i.repr)
    (hl : ∀ l c, v.at? l = some c → c.isLeaf = false → depth + l.length ≤ limit) :
    build separator maxPadding limit depth above (leafEntries separator v) = .ok v := by
  induction v using Json.inductionOnChildren generalizing depth above with
  | h v ih =>
    have hd : ¬limit < depth := Nat.not_lt.mpr (hl [] v rfl hv)
    rw [build, if_neg hd, group_leafEntries hw.distinct hs hv, List.mapM_map]
    refine bind_eq_ok_iff.mpr
      ⟨_, mapM_eq_ok (g := fun m => (m.1.text.toList, m.2)) ?children, ?whole⟩
    case children =>
      intro ⟨s, c⟩ hm
      have hc := Json.child?_of_mem_children hw.distinct.steps hm
      refine bind_eq_ok_iff.mpr ⟨c, (member_part separator s c).trans ?_, rfl⟩
      split
      case isTrue  => rfl
      case isFalse hleaf =>
        refine ih s c hm (hw.child? hc) (hs.child? hc) (by simpa using hleaf)
          (fun l ms h => hk (s :: l) ms (by simp [Json.at?_cons, hc, h])) fun l d h hd => ?_
        have := hl (s :: l) d (by simp [Json.at?_cons, hc, h]) hd
        simp only [List.length_cons] at this
        omega
    case whole =>
      cases v
      case arr items =>
        refine assemble_items ?_ hw
        rintro rfl
        cases hv
      case obj ms =>
        refine assemble_members (hk [] ms rfl ?_)
        rintro rfl
        cases hv
      all_goals cases hv

end Flat

namespace Json

variable {o : Options} {v : Json}

theorem unflat_leaf (hv : v.isLeaf = true) :
    Json.unflat o (v.flatMembers o.separator.char) = .ok v := by
  have empty : Flat.build o.separator.char o.maxPadding o.maxDepth 0 [] [] = .ok (.obj []) := by
    rw [Flat.build, if_neg (Nat.not_lt_zero _)]
    rfl
  cases v
  case arr items => cases items <;> first | rfl | cases hv
  case obj ms    => cases ms <;> first | exact empty | cases hv
  all_goals rfl

-- The empty key belongs to a leaf under the empty key of the root.
theorem child?_of_flatKey_eq {separator : Char} {l : Location} {x : Json}
    (hs : v.Separable separator) (hl : v.at? l = some x) (hn : l ≠ []) (e : l.flatKey separator = "") :
    v.child? (.key "") = some x := by
  have hseg := Location.splitOn_flatKey hn (hs l x hl)
  rw [e, String.toList_empty, List.splitOn_nil] at hseg
  cases l with
  | nil      => exact absurd rfl hn
  | cons s l =>
    obtain ⟨ht, hr⟩ : s.text.toList = [] ∧ l = [] := by simpa [Location.segments] using hseg.symm
    subst hr
    cases s with
    | index i => simp [Step.text] at ht
    | key k   =>
      cases String.toList_eq_nil_iff.mp ht
      simpa [at?_cons, at?_nil] using hl

-- A document is rebuilt from its flat map if its keys have no separators, no object has the keys of
-- an array, no leaf has the key of the root and its containers are not too deep. Empty containers
-- are leaves, so they may be one level deeper than the others.
theorem unflat_flat (hw : v.WellFormed) (hd : o.separator.char.isDigit = false)
    (hs : ∀ l ms, v.at? l = some (.obj ms) → ∀ k ∈ Members.keys ms, o.separator.char ∉ k.toList)
    (hk : ∀ l ms, v.at? l = some (.obj ms) → ms ≠ [] →
      ∃ k ∈ Members.keys ms, ∀ i < 0x10000000000000000, k ≠ i.repr)
    (he : ∀ x, v.child? (.key "") = some x → x.isLeaf = false)
    (hl : ∀ l c, v.at? l = some c → c.isLeaf = false → l.length ≤ o.maxDepth) :
    ∃ flat, v.flat o = .obj flat ∧ Json.unflat o flat = .ok v := by
  refine ⟨_, rfl, ?_⟩
  cases hv : v.isLeaf
  case true  => exact unflat_leaf hv
  case false =>
    have hs := separable_of_keys hd hs
    have hroot : Members.get? (v.flatMembers o.separator.char) "" = none := by
      rw [flatMembers_eq hw.distinct hs hv, Members.get?_eq_none_iff, Members.keys, List.map_map]
      intro h
      obtain ⟨n, hn, e⟩ := List.mem_map.mp h
      obtain ⟨hat, hx⟩ := (mem_placedLeaves hw.distinct).mp hn
      have hne := ne_nil_of_mem_placedLeaves hw.distinct hv hn
      exact Bool.false_ne_true ((he _ (child?_of_flatKey_eq hs hat hne e)).symm.trans hx)
    rw [Json.unflat, Flat.unflatten, hroot, flatMembers_eq hw.distinct hs hv, List.map_map]
    exact Flat.build_leafEntries hw hs hv hk fun l c h hc => by simpa using hl l c h hc

theorem unflat_flat_nested :
    let v : Json := .obj
      [("a", .obj [("0", .arr [.null, .arr [], .obj []]), ("b", .bool true)]), ("", .arr [.obj []])]
    let flat : List (String × Json) :=
      [("a.0.0", .null), ("a.0.1", .arr []), ("a.0.2", .obj []), ("a.b", .bool true),
        (".0", .obj [])]
    v.flat .default = .obj flat ∧ Json.unflat .default flat = .ok v := by
  intro v flat
  have hw : v.WellFormed := by
    simp [v, WellFormed, WellFormedMembers, WellFormedItems, Members.keys]
  have hflat : v.flat .default = .obj flat := by decide
  have all {P : Location → Json → Prop} (h : ∀ n ∈ v.preorder [], P n.1 n.2) {l c}
      (hc : v.at? l = some c) : P l c :=
    h (l, c) ((mem_preorder hw.distinct).mpr ⟨l, rfl, hc⟩)
  have keys {l ms} (h : v.at? l = some (.obj ms)) : ∀ k ∈ Members.keys ms, '.' ∉ k.toList := by
    have hs : ∀ s ∈ (obj ms).steps, '.' ∉ s.text.toList :=
      all (P := fun _ c => ∀ s ∈ c.steps, '.' ∉ s.text.toList) (by decide) h
    exact fun k hk => hs (.key k) (List.mem_map_of_mem hk)
  have names {l ms} (h : v.at? l = some (.obj ms)) (hn : ms ≠ []) :
      ∃ k ∈ Members.keys ms, ∀ i < 0x10000000000000000, k ≠ i.repr := by
    have hs : (obj ms).isLeaf = true ∨ (obj ms).kind = .array ∨
        ∃ s ∈ (obj ms).steps, s.text.toList.all Char.isDigit = false :=
      all (P := fun _ c => c.isLeaf = true ∨ c.kind = .array ∨
        ∃ s ∈ c.steps, s.text.toList.all Char.isDigit = false) (by decide) h
    rcases hs with hs | hs | ⟨_, hs, hdigits⟩
    · exact absurd (by simpa [children] using isLeaf_iff.mp hs) hn
    · cases hs
    · obtain ⟨k, hk, rfl⟩ := List.mem_map.mp hs
      refine ⟨k, hk, fun i _ e => ?_⟩
      subst e
      exact Bool.false_ne_true (hdigits.symm.trans (List.all_eq_true.mpr (digits_of_index i)))
  have depth {l c} (h : v.at? l = some c) : l.length ≤ Options.default.maxDepth :=
    all (P := fun l _ => l.length ≤ 100) (by decide) h
  obtain ⟨_, hf, hu⟩ := unflat_flat (o := .default) hw (by decide) (fun _ _ => keys)
    (fun _ _ => names) (fun x hx => by cases hx; rfl) (fun _ _ h _ => depth h)
  cases hf.symm.trans hflat
  exact ⟨hflat, hu⟩

end Json

end JsonQuery
