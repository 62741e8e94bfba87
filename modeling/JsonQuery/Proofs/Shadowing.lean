import Mathlib.Data.List.Perm.Subperm
import JsonQuery.Proofs.Accepted
import JsonQuery.Proofs.FlatKeys
import JsonQuery.Query

namespace JsonQuery

theorem eraseDups_snoc {α : Type} [BEq α] [LawfulBEq α] [DecidableEq α] (xs : List α) (x : α) :
    (xs ++ [x]).eraseDups = if x ∈ xs then xs.eraseDups else xs.eraseDups ++ [x] := by
  rw [List.eraseDups_append]
  by_cases h : x ∈ xs <;> simp [h, List.removeAll, List.eraseDups_cons]

namespace Members

variable {α : Type} {entries : List (String × α)} {key : String}

theorem ofList_snoc (entries : List (String × α)) (e : String × α) :
    ofList (entries ++ [e]) = (ofList entries).insert e.1 e.2 := by
  simp [ofList]

-- Every key stands where it was written first.
theorem keys_ofList (entries : List (String × α)) :
    (ofList entries).keys = (entries.map (·.1)).eraseDups := by
  induction entries using List.reverseRecOn with
  | nil => rfl
  | append_singleton entries e ih =>
    simp only [ofList_snoc, keys_insert, ih, List.map_append, List.map_singleton, eraseDups_snoc,
      List.mem_eraseDups]

-- It has the value that it was written with last.
theorem get?_ofList (entries : List (String × α)) (key : String) :
    (ofList entries).get? key = (entries.reverse.find? (·.1 = key)).map (·.2) := by
  induction entries using List.reverseRecOn with
  | nil => rfl
  | append_singleton entries e ih =>
    rw [ofList_snoc, List.reverse_append, List.reverse_singleton, List.singleton_append]
    by_cases h : e.1 = key
    case pos => simp [h, get?_insert_self]
    case neg => simp [h, get?_insert_of_ne h, ih]

theorem mem_keys_ofList : key ∈ (ofList entries).keys ↔ key ∈ entries.map (·.1) := by
  rw [keys_ofList, List.mem_eraseDups]

-- No entry is lost just if no key is written twice.
theorem length_ofList_eq_iff :
    (ofList entries).length = entries.length ↔ (entries.map (·.1)).Nodup := by
  constructor
  case mp =>
    intro h
    have hs : (ofList entries).keys.Subperm (entries.map (·.1)) :=
      List.subperm_of_subset keys_nodup_ofList fun _ hk => mem_keys_ofList.mp hk
    have hp : (ofList entries).keys.Perm (entries.map (·.1)) :=
      hs.perm_of_length_le (by simp [keys, h])
    exact hp.nodup_iff.mp keys_nodup_ofList
  case mpr => exact fun h => congrArg List.length (ofList_of_nodup h)

end Members

namespace Json

variable {separator : Char} {v : Json} {o : Options}

-- The key of a leaf in the flat map of its document.
def leafKey (separator : Char) (leaf : Location × Json) : String := leaf.1.flatKey separator

-- Whether no two leaves of a document have the same key in its flat map.
def LeavesApart (separator : Char) (v : Json) : Prop :=
  ∀ l m x y, v.at? l = some x → x.isLeaf = true → v.at? m = some y → y.isLeaf = true →
    l.flatKey separator = m.flatKey separator → l = m

theorem nodup_leafKeys_iff (hd : v.Distinct) :
    (v.placedLeaves.map (leafKey separator)).Nodup ↔ v.LeavesApart separator := by
  have hn : v.placedLeaves.Nodup := (nodup_placedLeaves hd).of_map _
  rw [List.nodup_map_iff_inj_on hn]
  constructor
  case mp =>
    intro h l m x y hl hx hm hy e
    have hleaf := (mem_placedLeaves hd).mpr ⟨hl, hx⟩
    have hleaf' := (mem_placedLeaves hd).mpr ⟨hm, hy⟩
    exact congrArg Prod.fst (h _ hleaf _ hleaf' e)
  case mpr =>
    rintro h ⟨l, x⟩ hleaf ⟨m, y⟩ hleaf' e
    obtain ⟨hl, hx⟩ := (mem_placedLeaves hd).mp hleaf
    obtain ⟨hm, hy⟩ := (mem_placedLeaves hd).mp hleaf'
    cases h l m x y hl hx hm hy e
    cases hl.symm.trans hm
    rfl

-- Separators in the keys are what makes two leaves meet.
theorem leavesApart_of_separable (hv : v.isLeaf = false) (hs : v.Separable separator) :
    v.LeavesApart separator := by
  intro l m x y hl hx hm hy e
  have below {l x} (hl : v.at? l = some x) (hx : x.isLeaf = true) : l ≠ [] := by
    rintro rfl
    cases hl
    simp [hv] at hx
  exact flatKey_inj hs hl hm (below hl hx) (below hm hy) e

-- The entries of a flat map are those of the leaves in order. Leaves with the same key have one
-- entry together, at the place of the first and with the value of the last. So every leaf has an
-- entry of its own just if no two of them have the same key, which can only be if a key of the
-- document has a separator in it or the separator is a digit.
theorem flat_entries (hw : v.WellFormed) (hv : v.isLeaf = false) :
    let key := leafKey o.separator.char
    (∀ l x, (l, x) ∈ v.placedLeaves ↔ v.at? l = some x ∧ x.isLeaf = true) ∧
    ∃ entries, v.flat o = .obj entries ∧
      Members.keys entries = (v.placedLeaves.map key).eraseDups ∧
      (∀ k, Members.get? entries k = (v.placedLeaves.reverse.find? (key · = k)).map (·.2)) ∧
      (entries = (v.placedLeaves.map fun n => (key n, n.2)) ↔ v.LeavesApart o.separator.char) ∧
      (entries.length = v.placedLeaves.length ↔ v.LeavesApart o.separator.char) ∧
      (o.separator.char.isDigit = false →
        (∀ l ms, v.at? l = some (.obj ms) → ∀ k ∈ Members.keys ms, o.separator.char ∉ k.toList) →
          v.LeavesApart o.separator.char) := by
  intro key
  have hkeys : (v.placedLeaves.map fun n => (key n, n.2)).map (·.1) = v.placedLeaves.map key := by
    simp
  have hflat : v.flatMembers o.separator.char =
      Members.ofList (v.placedLeaves.map fun n => (key n, n.2)) := flatMembers_of_not_isLeaf hv
  have hlength : (v.flatMembers o.separator.char).length = v.placedLeaves.length ↔
      v.LeavesApart o.separator.char := by
    rw [hflat, ← nodup_leafKeys_iff hw.distinct, ← hkeys,
      ← Members.length_ofList_eq_iff, List.length_map]
  refine ⟨fun l x => mem_placedLeaves hw.distinct, _, rfl, ?keys, fun k => ?value, ?entries,
    hlength, fun hd hk => leavesApart_of_separable hv (separable_of_keys hd hk)⟩
  case keys => rw [hflat, Members.keys_ofList, hkeys]
  case value =>
    rw [hflat, Members.get?_ofList, ← List.map_reverse, List.find?_map, Option.map_map]
    rfl
  case entries =>
    constructor
    case mp  => exact fun e => hlength.mp (by rw [e, List.length_map])
    case mpr =>
      intro h
      rw [hflat, Members.ofList_of_nodup]
      rwa [Members.keys, hkeys, nodup_leafKeys_iff hw.distinct]

theorem flat_entries_shadowed :
    let v : Json := .obj [("a", .obj [("b", .int 1)]), ("c", .null), ("a.b", .int 2)]
    v.flat .default = .obj [("a.b", .int 2), ("c", .null)] ∧ v.placedLeaves.length = 3 ∧
      ¬ v.LeavesApart '.' := by
  intro v
  have hw : v.WellFormed := by
    simp [v, WellFormed, WellFormedMembers, Members.keys, Json.int]
  have hflat : v.flat .default = .obj [("a.b", .int 2), ("c", .null)] := by decide
  have hleaves : v.placedLeaves.length = 3 := by decide
  obtain ⟨_, entries, he, _, _, _, hlength, _⟩ := flat_entries (o := .default) hw rfl
  cases he.symm.trans hflat
  exact ⟨hflat, hleaves, fun h => absurd ((hlength.mpr h).trans hleaves) (by decide)⟩

end Json

end JsonQuery
