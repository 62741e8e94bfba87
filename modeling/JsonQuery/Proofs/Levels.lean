import JsonQuery.Proofs.Assembling
import JsonQuery.Proofs.CutShort
import JsonQuery.Proofs.Descendants

namespace JsonQuery

def Step.isIndex : Step → Bool
  | .index _ => true
  | .key _   => false

namespace Json

variable {v x : Json} {items xs ys zs : List Json} {limit depth d m : Nat} {levels : Option Nat}

-- The values of a document that are no arrays and that one comes to through arrays alone, with
-- their locations.
def contents (v : Json) : List (Location × Json) :=
  (v.preorder []).filter fun n => n.1.all Step.isIndex && n.2.kind != .array

theorem contents_eq (v : Json) : v.contents =
    (if v.kind = .array then [] else [([], v)]) ++ v.children.flatMap fun m =>
      if m.1.isIndex then m.2.contents.map fun n => (m.1 :: n.1, n.2) else [] := by
  have hchild (m : Step × Json) : (m.2.preorder ([] ++ [m.1])).filter
      (fun n => n.1.all Step.isIndex && n.2.kind != .array) =
        if m.1.isIndex then m.2.contents.map fun n => (m.1 :: n.1, n.2) else [] := by
    have h := preorder_append [m.1] [] m.2
    rw [List.append_nil] at h
    rw [List.nil_append, h, List.filter_map]
    cases hm : m.1.isIndex <;> simp [contents, Function.comp_def, hm]
  rw [contents, preorder_eq, List.filter_cons, List.filter_flatMap]
  simp only [hchild]
  by_cases hv : v.kind = .array <;> simp [hv]

theorem contents_of_kind (hv : v.kind ≠ .array) : v.contents = [([], v)] := by
  have hkeys : ∀ m ∈ v.children, m.1.isIndex = false := by
    intro m hm
    cases v <;> simp only [children, List.not_mem_nil] at hm
    case arr items => exact absurd rfl hv
    case obj ms =>
      obtain ⟨_, _, rfl⟩ := List.mem_map.mp hm
      rfl
  rw [contents_eq, if_neg hv, List.flatMap_eq_nil_iff.mpr fun m hm => by simp [hkeys m hm]]
  rfl

theorem contents_arr (items : List Json) :
    (arr items).contents.map (·.2) = items.flatMap fun x => x.contents.map (·.2) := by
  have hindices : ∀ m ∈ (arr items).children, m.1.isIndex = true := by
    simp only [children]
    intro m hm
    obtain ⟨i, hi, rfl⟩ := List.mem_mapIdx.mp hm
    rfl
  have hchild : (arr items).contents.map (·.2) =
      (arr items).children.flatMap fun m => m.2.contents.map (·.2) := by
    have hkind : (arr items).kind = .array := rfl
    rw [contents_eq, if_pos hkind, List.nil_append, List.map_flatMap]
    exact List.flatMap_congr fun m hm => by simp [hindices m hm, Function.comp_def]
  conv_rhs => rw [← Flat.values_of_items items, List.flatMap_map]
  exact hchild

theorem contents_eq_self (hx : ∀ x ∈ xs, x.kind ≠ .array) : (arr xs).contents.map (·.2) = xs := by
  have hself : (xs.flatMap fun x => x.contents.map (·.2)) = xs.flatMap fun x => [x] :=
    List.flatMap_congr fun x h => by rw [contents_of_kind (hx x h)]; rfl
  rw [contents_arr, hself, List.flatMap_singleton']

theorem flattenItem_of_kind (hv : v.kind ≠ .array) (levels : Option Nat) (depth : Nat) :
    flattenItem limit levels depth v = .ok [v] := by
  cases v <;> first | rfl | exact absurd rfl hv

theorem flattenItem_arr_eq_ok_iff : flattenItem limit levels depth (arr items) = .ok zs ↔
    levels = some 0 ∧ zs = [arr items] ∨ levels ≠ some 0 ∧ deeper depth ≤ limit ∧
      flattenItems limit (levels.map (· - 1)) (deeper depth) items = .ok zs := by
  rw [flattenItem]
  by_cases hl : levels = some 0
  case pos => simp [hl, eq_comm]
  case neg =>
    by_cases hd : limit < deeper depth
    case pos => simp [hl, hd, Nat.not_le.mpr hd]
    case neg => simp [hl, hd, Nat.le_of_not_lt hd]

theorem flattenItems_cons_eq_ok_iff : flattenItems limit levels depth (v :: items) = .ok zs ↔
    ∃ xs ys, flattenItem limit levels depth v = .ok xs ∧
      flattenItems limit levels depth items = .ok ys ∧ zs = xs ++ ys := by
  rw [flattenItems, bind_eq_ok_iff]
  refine exists_congr fun xs => ?_
  rw [bind_eq_ok_iff, ← exists_and_left]
  refine exists_congr fun ys => and_congr_right fun _ => and_congr_right fun _ => ?_
  simp [pure, Except.pure, eq_comm]

theorem flattenItems_append (hx : flattenItems limit levels depth items = .ok xs)
    (hy : flattenItems limit levels depth zs = .ok ys) :
    flattenItems limit levels depth (items ++ zs) = .ok (xs ++ ys) := by
  induction items generalizing xs with
  | nil =>
    cases hx
    exact hy
  | cons v items ih =>
    obtain ⟨first, others, hv, hi, rfl⟩ := flattenItems_cons_eq_ok_iff.mp hx
    exact flattenItems_cons_eq_ok_iff.mpr ⟨first, _, hv, ih hi, List.append_assoc _ _ _⟩

theorem flattenItems_eq_self (hx : ∀ x ∈ xs, x.kind ≠ .array) (levels : Option Nat) (depth : Nat) :
    flattenItems limit levels depth xs = .ok xs := by
  induction xs with
  | nil => rfl
  | cons x xs ih =>
    obtain ⟨hx, hxs⟩ := List.forall_mem_cons.mp hx
    exact flattenItems_cons_eq_ok_iff.mpr ⟨[x], xs, flattenItem_of_kind hx _ _, ih hxs, rfl⟩

-- What can be flattened at some depth can be flattened nearer to the root, too.
theorem flattenItems_shallower (hroom : NoDeeper limit depth d) (hd : depth ≤ limit)
    (h : flattenItems limit levels depth items = .ok xs) :
    flattenItems limit levels d items = .ok xs := by
  have hroom : Roomier (fun _ => True) limit depth limit d := .more (Nat.le_refl _) hroom trivial
  refine ((flattenItems_cutShort hroom (.inr hd) items levels).eq fun e he => ?_).trans h
  cases h.symm.trans he

mutual

-- Some levels, and then others of the result. What is left of the arrays in it lies nearer to the
-- root than before.
theorem flattenItem_add (m : Nat) (levels : Option Nat) : (v : Json) → (depth : Nat) →
    NoDeeper limit depth d → depth ≤ limit →
    {zs : List Json} → flattenItem limit (levels.map (m + ·)) depth v = .ok zs →
      ∃ xs, flattenItem limit (some m) depth v = .ok xs ∧ flattenItems limit levels d xs = .ok zs
  | v, depth, hroom, hd, zs, h => by
    by_cases hv : v.kind = .array
    case neg =>
      rw [flattenItem_of_kind hv] at h
      cases h
      refine ⟨[v], flattenItem_of_kind hv _ _, flattenItems_eq_self ?_ levels d⟩
      exact List.forall_mem_singleton.mpr hv
    case pos =>
      cases v <;> cases hv
      case arr.refl items =>
        cases m with
        | zero =>
          have hlevels : levels.map (0 + ·) = levels := by cases levels <;> simp
          rw [hlevels] at h
          refine ⟨[arr items], rfl, flattenItems_shallower hroom hd ?_⟩
          exact flattenItems_cons_eq_ok_iff.mpr ⟨zs, [], h, rfl, (List.append_nil _).symm⟩
        | succ m =>
          rcases flattenItem_arr_eq_ok_iff.mp h with ⟨hz, _⟩ | ⟨_, hdeeper, hitems⟩
          case inl => simp at hz
          case inr =>
            have hlevels : (levels.map (m + 1 + ·)).map (· - 1) = levels.map (m + ·) := by
              cases levels <;> simp [Nat.add_right_comm]
            rw [hlevels] at hitems
            obtain ⟨xs, hx, hrest⟩ :=
              flattenItems_add m levels items (deeper depth) (hroom.below hd) hdeeper hitems
            exact ⟨xs, flattenItem_arr_eq_ok_iff.mpr (.inr ⟨by simp, hdeeper, hx⟩), hrest⟩

theorem flattenItems_add (m : Nat) (levels : Option Nat) : (items : List Json) → (depth : Nat) →
    NoDeeper limit depth d → depth ≤ limit →
    {zs : List Json} → flattenItems limit (levels.map (m + ·)) depth items = .ok zs →
      ∃ xs, flattenItems limit (some m) depth items = .ok xs ∧ flattenItems limit levels d xs = .ok zs
  | [], _, _, _, _, h => ⟨[], rfl, h⟩
  | v :: items, depth, hroom, hd, zs, h => by
    obtain ⟨xs, ys, hx, hy, rfl⟩ := flattenItems_cons_eq_ok_iff.mp h
    obtain ⟨xs', hx, hx'⟩ := flattenItem_add m levels v depth hroom hd hx
    obtain ⟨ys', hy, hy'⟩ := flattenItems_add m levels items depth hroom hd hy
    exact ⟨xs' ++ ys', flattenItems_cons_eq_ok_iff.mpr ⟨_, _, hx, hy, rfl⟩,
      flattenItems_append hx' hy'⟩

end

-- What a flattened array contains is what it contained before. Without a limit to the levels there
-- is nothing else left.
def Flattens (levels : Option Nat) (items xs : List Json) : Prop :=
  (arr xs).contents.map (·.2) = (arr items).contents.map (·.2) ∧
    (levels = none → ∀ x ∈ xs, x.kind ≠ .array)

mutual

theorem flattens_of_flattenItem : (v : Json) → {levels : Option Nat} → {depth : Nat} →
    {xs : List Json} → flattenItem limit levels depth v = .ok xs → Flattens levels [v] xs
  | v, levels, depth, xs, h => by
    by_cases hv : v.kind = .array
    case neg =>
      rw [flattenItem_of_kind hv] at h
      cases h
      exact ⟨rfl, fun _ => List.forall_mem_singleton.mpr hv⟩
    case pos =>
      cases v <;> cases hv
      case arr.refl items =>
        rcases flattenItem_arr_eq_ok_iff.mp h with ⟨hz, rfl⟩ | ⟨_, _, hitems⟩
        case inl => exact ⟨rfl, fun hn => absurd (hz.symm.trans hn) nofun⟩
        case inr =>
          obtain ⟨hcontents, hkinds⟩ := flattens_of_flattenItems items hitems
          refine ⟨?_, fun hn => hkinds (by rw [hn]; rfl)⟩
          rw [hcontents, contents_arr [arr items], List.flatMap_singleton]

theorem flattens_of_flattenItems : (items : List Json) → {levels : Option Nat} → {depth : Nat} →
    {xs : List Json} → flattenItems limit levels depth items = .ok xs → Flattens levels items xs
  | [], _, _, _, h => by
    cases h
    exact ⟨rfl, fun _ => nofun⟩
  | v :: items, _, _, _, h => by
    obtain ⟨xs, ys, hx, hy, rfl⟩ := flattenItems_cons_eq_ok_iff.mp h
    obtain ⟨hxc, hxk⟩ := flattens_of_flattenItem v hx
    obtain ⟨hyc, hyk⟩ := flattens_of_flattenItems items hy
    refine ⟨?_, fun hn => List.forall_mem_append.mpr ⟨hxk hn, hyk hn⟩⟩
    rw [contents_arr] at hxc hyc ⊢
    rw [List.flatMap_append, hxc, hyc, contents_arr, contents_arr, contents_arr,
      List.flatMap_singleton, List.flatMap_cons]

end

theorem flatten_eq_ok_iff : (arr items).flatten limit levels depth = .ok x ↔
    depth ≤ limit ∧ ∃ xs, flattenItems limit levels depth items = .ok xs ∧ arr xs = x := by
  rw [flatten]
  split
  case isTrue hd  => simp [Nat.not_le.mpr hd]
  case isFalse hd => rw [map_eq_ok_iff, and_iff_right (Nat.le_of_not_lt hd)]

theorem mem_contents (hv : v.Distinct) {l : Location} : (l, x) ∈ v.contents ↔
    v.at? l = some x ∧ (∀ s ∈ l, ∃ i, s = .index i) ∧ ∀ xs, x ≠ arr xs := by
  have hindex (s : Step) : s.isIndex = true ↔ ∃ i, s = .index i := by
    cases s <;> simp [Step.isIndex]
  have hkind : x.kind ≠ .array ↔ ∀ xs, x ≠ arr xs := by
    cases x <;> simp [kind]
  simp [contents, mem_preorder hv, hindex, hkind]

-- Levels can be opened one after the other or all at once, and what the array contains stays as it
-- is. When all of them are opened nothing but that is left.
theorem flatten_composes (o : Options) (depth : Nat) (hv : (arr items).WellFormed) :
    let flattened (levels : Option Nat) (v : Json) := Builtin.apply o depth v (.flatten levels)
    let values (v : Json) := v.contents.map (·.2)
    (∀ m n r, flattened (some (m + n)) (arr items) = .ok r →
      ∃ r', flattened (some m) (arr items) = .ok r' ∧ flattened (some n) r' = .ok r) ∧
    (∀ r, flattened none (arr items) = .ok r →
      r = arr (values (arr items)) ∧ (∀ x ∈ values (arr items), ∀ xs, x ≠ arr xs) ∧
      ∀ levels, flattened levels r = .ok r) ∧
    (∀ levels r, flattened levels (arr items) = .ok r → values r = values (arr items)) ∧
    (∀ l x, (l, x) ∈ (arr items).contents ↔
      (arr items).at? l = some x ∧ (∀ s ∈ l, ∃ i, s = .index i) ∧ ∀ xs, x ≠ arr xs) ∧
    ((arr items).contents.map (·.1)).Pairwise (arr items).Precedes := by
  intro flattened values
  have hmem (l x) := mem_contents (l := l) (x := x) hv.distinct
  refine ⟨fun m n r h => ?composes, fun r h => ?complete, fun levels r h => ?preserves, hmem,
    ?order⟩
  case composes =>
    obtain ⟨hd, zs, hz, rfl⟩ := flatten_eq_ok_iff.mp h
    have hroom : NoDeeper o.maxDepth depth depth := .inl (Nat.le_refl _)
    obtain ⟨xs, hx, hrest⟩ := flattenItems_add m (some n) items depth hroom hd hz
    exact ⟨arr xs, flatten_eq_ok_iff.mpr ⟨hd, xs, hx, rfl⟩,
      flatten_eq_ok_iff.mpr ⟨hd, zs, hrest, rfl⟩⟩
  case complete =>
    obtain ⟨hd, xs, hx, rfl⟩ := flatten_eq_ok_iff.mp h
    obtain ⟨hcontents, hkinds⟩ := flattens_of_flattenItems items hx
    have hkinds := hkinds rfl
    have hxs : values (arr items) = xs := hcontents.symm.trans (contents_eq_self hkinds)
    rw [hxs]
    refine ⟨rfl, fun x h xs e => hkinds x h (e ▸ rfl), fun levels => ?_⟩
    exact flatten_eq_ok_iff.mpr ⟨hd, xs, flattenItems_eq_self hkinds levels depth, rfl⟩
  case preserves =>
    obtain ⟨_, xs, hx, rfl⟩ := flatten_eq_ok_iff.mp h
    exact (flattens_of_flattenItems items hx).1
  case order => exact (pairwise_preorder hv.distinct).sublist (List.filter_sublist.map _)

theorem flatten_composes_nested :
    let a : Json := .arr [.int 1, .arr [.int 2, .arr [.arr [.int 3]], .obj [("k", .arr [.int 4])]]]
    let flattened (levels : Option Nat) (v : Json) :=
      Builtin.apply { Options.default with maxDepth := 5 } 2 v (.flatten levels)
    (∃ r, flattened (some 1) a = .ok r ∧
      flattened (some 1) r =
        .ok (.arr [.int 1, .int 2, .arr [.int 3], .obj [("k", .arr [.int 4])]])) ∧
    flattened none (.arr [.int 1, .int 2, .int 3, .obj [("k", .arr [.int 4])]]) =
      .ok (.arr [.int 1, .int 2, .int 3, .obj [("k", .arr [.int 4])]]) := by
  intro a flattened
  have hv : a.WellFormed := by
    simp [a, WellFormed, WellFormedMembers, WellFormedItems, Members.keys, int]
  obtain ⟨hadd, hall, _⟩ := flatten_composes { Options.default with maxDepth := 5 } 2 hv
  exact ⟨hadd 1 1 _ rfl, (hall _ rfl).2.2 none⟩

end Json

end JsonQuery
