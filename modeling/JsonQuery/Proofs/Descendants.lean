import Mathlib.Logic.Function.Iterate
import JsonQuery.Proofs.Preorder
import JsonQuery.Proofs.Run
import JsonQuery.Query

namespace JsonQuery

theorem Step.toJson_injective : Function.Injective Step.toJson := by
  intro s t h
  cases s <;> cases t <;> simp only [toJson, Json.ofNat, Json.int, reduceCtorEq] at h
  case key.key     => exact congrArg key (Json.str.inj h)
  case index.index => exact congrArg index (Int.ofNat_inj.mp (Number.int.inj (Json.num.inj h)))

-- Steps that all fail in the same way, if they fail.
theorem mapM_eq_ite {α β ε : Type} {f : α → Except ε β} {g : α → β} {e : ε} {p : α → Bool}
    {xs : List α} (h : ∀ x ∈ xs, f x = if p x then .error e else .ok (g x)) :
    xs.mapM f = if xs.any p then .error e else .ok (xs.map g) := by
  induction xs with
  | nil => rfl
  | cons x rest ih =>
    obtain ⟨hx, hr⟩ := List.forall_mem_cons.mp h
    rw [List.mapM_cons, hx, ih hr, List.any_cons]
    cases p x <;> cases rest.any p <;> rfl

-- Lists that are computed one after the other and appended.
theorem mapM_cons_flatten {α β ε : Type} (f : α → Except ε (List β)) (x : α) (rest : List α) :
    ((x :: rest).mapM f).map List.flatten = do
      let first ← f x
      let others ← (rest.mapM f).map List.flatten
      return first ++ others := by
  rw [List.mapM_cons]
  cases f x with
  | error e  => rfl
  | ok first => cases rest.mapM f <;> rfl

theorem iterate_deeper_le (depth n : Nat) : deeper^[n] depth ≤ depth + n := by
  induction n with
  | zero => exact Nat.le_refl _
  | succ n ih =>
    rw [Function.iterate_succ_apply']
    exact Nat.le_trans (deeper_le _) (Nat.succ_le_succ ih)

theorem iterate_deeper_le_of_le {limit depth : Nat} (hd : depth ≤ limit)
    (hlimit : 0xFFFFFFFFFFFFFFFF ≤ limit) (n : Nat) : deeper^[n] depth ≤ limit := by
  cases n with
  | zero   => exact hd
  | succ n =>
    rw [Function.iterate_succ_apply']
    exact Nat.le_trans (Nat.le_of_lt_succ (deeper_lt _)) hlimit

-- A limit that some depth exceeds is exceeded before the depths go around.
theorem exists_lt_iterate_deeper {limit depth n : Nat}
    (h : 0xFFFFFFFFFFFFFFFF ≤ limit → ¬ depth ≤ limit) (hn : limit < depth + n) :
    ∃ k ≤ n, limit < deeper^[k] depth := by
  induction n generalizing depth with
  | zero => exact ⟨0, Nat.le_refl _, hn⟩
  | succ n ih =>
    by_cases hd : limit < depth
    case pos => exact ⟨0, Nat.zero_le _, hd⟩
    case neg =>
      have hlimit : limit < 0xFFFFFFFFFFFFFFFF := Nat.lt_of_not_le fun hl => h hl (Nat.le_of_not_lt hd)
      have hnext : deeper depth = depth + 1 := deeper_of_lt (by omega)
      obtain ⟨k, hk, hlt⟩ := @ih (deeper depth) (by omega) (by omega)
      exact ⟨k + 1, Nat.succ_le_succ hk, hlt⟩

namespace Json

variable {v c x : Json} {s : Step} {l m : Location} {limit depth : Nat} {only : Option Descendants}
  {path : List Json}

-- All values inside of a document with their locations, every value before those inside of it.
def descendants (v : Json) : List (Location × Json) :=
  v.children.flatMap fun m => m.2.preorder [m.1]

theorem preorder_nil (v : Json) : v.preorder [] = ([], v) :: v.descendants :=
  preorder_eq [] v

theorem descendants_eq (v : Json) : v.descendants = v.children.flatMap fun m =>
    ([m.1], m.2) :: m.2.descendants.map fun n => (m.1 :: n.1, n.2) := by
  refine List.flatMap_congr fun m _ => ?_
  have h := preorder_append [m.1] [] m.2
  rwa [List.append_nil, preorder_nil] at h

theorem nodup_descendants (hv : v.Distinct) :
    [] ∉ v.descendants.map (·.1) ∧ (v.descendants.map (·.1)).Nodup := by
  have hn : ((v.preorder []).map (·.1)).Nodup := nodup_preorder hv
  rw [preorder_nil, List.map_cons] at hn
  exact List.nodup_cons.mp hn

theorem mem_descendants (hv : v.Distinct) :
    (l, x) ∈ v.descendants ↔ l ≠ [] ∧ v.at? l = some x := by
  have hall : (l, x) ∈ v.preorder [] ↔ v.at? l = some x := by simp [mem_preorder hv]
  have hroot := (nodup_descendants hv).1
  rw [← hall, preorder_nil, List.mem_cons, Prod.mk.injEq]
  constructor
  case mp  => exact fun h => ⟨fun e => hroot (List.mem_map.mpr ⟨_, h, e⟩), .inr h⟩
  case mpr => exact fun ⟨hl, h⟩ => h.resolve_left fun e => hl e.1

-- Whether some value of a document lies deeper than the limit, where the document is at the depth.
def tooDeep (limit depth : Nat) (v : Json) : Bool :=
  (v.preorder []).any fun n => limit < deeper^[n.1.length] depth

theorem tooDeep_eq (limit depth : Nat) (v : Json) : v.tooDeep limit depth =
    (decide (limit < depth) || v.children.any fun m => m.2.tooDeep limit (deeper depth)) := by
  simp only [tooDeep, preorder_nil, descendants_eq v, List.any_cons, List.any_flatMap, List.any_map,
    List.length_nil, List.length_cons, Function.iterate_zero_apply, Function.iterate_succ_apply,
    Function.comp_def]
  rfl

-- The depths count how far down a value is, as long as they do not go around. They do so only where
-- no depth exceeds the limit.
theorem tooDeep_iff (hv : v.Distinct) : v.tooDeep limit depth = true ↔
    (∃ l c, v.at? l = some c ∧ limit < depth + l.length) ∧
      ¬ (depth ≤ limit ∧ 0xFFFFFFFFFFFFFFFF ≤ limit) := by
  have hdeep : v.tooDeep limit depth = true ↔
      ∃ l c, v.at? l = some c ∧ limit < deeper^[l.length] depth := by
    simp [tooDeep, mem_preorder hv]
  rw [hdeep]
  constructor
  case mp =>
    rintro ⟨l, c, hl, hlt⟩
    refine ⟨⟨l, c, hl, Nat.lt_of_lt_of_le hlt (iterate_deeper_le depth _)⟩, fun ⟨hd, hlimit⟩ => ?_⟩
    exact Nat.not_lt.mpr (iterate_deeper_le_of_le hd hlimit _) hlt
  case mpr =>
    rintro ⟨⟨l, c, hl, hlt⟩, haround⟩
    obtain ⟨k, hk, hlt⟩ := exists_lt_iterate_deeper (not_and'.mp haround) hlt
    rw [← List.take_append_drop k l, at?_append] at hl
    obtain ⟨c, hc, _⟩ := Option.bind_eq_some_iff.mp hl
    exact ⟨l.take k, c, hc, by rwa [List.length_take_of_le hk]⟩

-- One location comes before another where a value is visited before its children, and a child with
-- everything inside of it before the next one.
def Precedes (v : Json) (l m : Location) : Prop :=
  (∃ s rest, m = l ++ s :: rest) ∨
    ∃ k c s t l' m', v.at? k = some c ∧ [s, t].Sublist c.steps ∧ l = k ++ s :: l' ∧ m = k ++ t :: m'

theorem Precedes.below (hc : v.child? s = some c) (h : c.Precedes l m) :
    v.Precedes (s :: l) (s :: m) := by
  rcases h with ⟨t, rest, rfl⟩ | ⟨k, d, t, u, l', m', hd, hsub, rfl, rfl⟩
  case inl => exact .inl ⟨t, rest, rfl⟩
  case inr =>
    exact .inr ⟨s :: k, d, t, u, l', m', by simp [at?_cons, hc, hd], hsub, rfl, rfl⟩

theorem locations_descendants (v : Json) : v.descendants.map (·.1) =
    v.children.flatMap fun m => [m.1] :: (m.2.descendants.map (·.1)).map (m.1 :: ·) := by
  rw [descendants_eq, List.map_flatMap]
  exact List.flatMap_congr fun m _ => by simp [Function.comp_def]

theorem pairwise_descendants (hv : v.Distinct) :
    (v.descendants.map (·.1)).Pairwise v.Precedes := by
  induction v using inductionOnChildren with
  | h v ih =>
    rw [locations_descendants, List.pairwise_flatMap]
    refine ⟨fun ⟨s, c⟩ hm => List.pairwise_cons.mpr ⟨fun l hl => ?first, ?inside⟩, ?apart⟩
    case first =>
      obtain ⟨m, hm, rfl⟩ := List.mem_map.mp hl
      obtain ⟨⟨m, x⟩, hx, rfl⟩ := List.mem_map.mp hm
      have hc := child?_of_mem_children hv.steps ‹_›
      cases m with
      | nil      => exact absurd rfl ((mem_descendants (hv.child? hc)).mp hx).1
      | cons t m => exact .inl ⟨t, m, rfl⟩
    case inside =>
      have hc := child?_of_mem_children hv.steps hm
      exact List.pairwise_map.mpr ((ih s c hm (hv.child? hc)).imp (·.below hc))
    case apart =>
      refine List.pairwise_iff_forall_sublist.mpr fun {a b} hsub l hl m hm => ?_
      have hsteps : [a.1, b.1].Sublist v.steps := map_children v ▸ hsub.map Prod.fst
      have starts {n : Step × Json} {ls : List Location} {l : Location}
          (h : l ∈ [n.1] :: ls.map (n.1 :: ·)) : ∃ l', l = n.1 :: l' := by
        rcases List.mem_cons.mp h with h | h
        case inl => exact ⟨[], h⟩
        case inr =>
          obtain ⟨l', _, e⟩ := List.mem_map.mp h
          exact ⟨l', e.symm⟩
      obtain ⟨l', rfl⟩ := starts hl
      obtain ⟨m', rfl⟩ := starts hm
      exact .inr ⟨[], v, a.1, b.1, l', m', rfl, hsteps, rfl, rfl⟩

theorem pairwise_preorder (hv : v.Distinct) :
    ((v.preorder []).map (·.1)).Pairwise v.Precedes := by
  rw [preorder_nil, List.map_cons, List.pairwise_cons]
  refine ⟨fun l hl => ?_, pairwise_descendants hv⟩
  cases l with
  | nil      => exact absurd hl (nodup_descendants hv).1
  | cons s l => exact .inl ⟨s, l, rfl⟩

-- What is told of one child: its path, if its kind is asked for, and the paths below it.
def pathsAt (only : Option Descendants) (limit depth : Nat) (path : List Json) (m : Step × Json) :
    Except Error (List Json) := do
  let here := path ++ [m.1.toJson]
  let below ← pathsBelow only limit (deeper depth) here m.2
  return (if Descendants.accepts only m.2 then [arr here] else []) ++ below

theorem pathsBelow_eq (only : Option Descendants) (limit depth : Nat) (path : List Json)
    (v : Json) : pathsBelow only limit depth path v =
      if limit < depth then .error (.tooDeep limit)
      else (v.children.mapM (pathsAt only limit depth path)).map List.flatten := by
  have items (xs : List Json) (i : Nat) : pathsOfItems only limit depth path i xs =
      ((xs.mapIdx fun j x => (Step.index (i + j), x)).mapM (pathsAt only limit depth path)).map
        List.flatten := by
    induction xs generalizing i with
    | nil => rfl
    | cons x rest ih =>
      simp only [pathsOfItems, ih, List.mapIdx_cons, mapM_cons_flatten, pathsAt, Step.toJson,
        bind_assoc, pure_bind, Nat.add_assoc, Nat.add_comm 1, Nat.add_zero]
  have members (ms : List (String × Json)) : pathsOfMembers only limit depth path ms =
      ((ms.map fun m => (Step.key m.1, m.2)).mapM (pathsAt only limit depth path)).map
        List.flatten := by
    induction ms with
    | nil => rfl
    | cons m rest ih =>
      simp only [pathsOfMembers, ih, List.map_cons, mapM_cons_flatten, pathsAt, Step.toJson,
        bind_assoc, pure_bind]
  cases v
  case arr xs => simp [pathsBelow, children, items]
  case obj ms => simp [pathsBelow, children, members]
  all_goals rfl

-- The paths that are told of some values.
def pathsTo (only : Option Descendants) (path : List Json) (ns : List (Location × Json)) :
    List Json :=
  (ns.filter fun n => Descendants.accepts only n.2).map fun n => arr (path ++ n.1.map Step.toJson)

theorem pathsTo_cons (s : Step) (x : Json) (ns : List (Location × Json)) :
    pathsTo only path (([s], x) :: ns.map fun n => (s :: n.1, n.2)) =
      (if Descendants.accepts only x then [arr (path ++ [s.toJson])] else []) ++
        pathsTo only (path ++ [s.toJson]) ns := by
  have hrest : pathsTo only path (ns.map fun n => (s :: n.1, n.2)) =
      pathsTo only (path ++ [s.toJson]) ns := by
    simp [pathsTo, List.filter_map, Function.comp_def]
  rw [← hrest]
  cases h : Descendants.accepts only x <;> simp [pathsTo, h]

theorem pathsTo_flatMap {α : Type} (xs : List α) (f : α → List (Location × Json)) :
    pathsTo only path (xs.flatMap f) = (xs.map fun x => pathsTo only path (f x)).flatten := by
  rw [pathsTo, List.filter_flatMap, List.map_flatMap, List.flatMap_def]
  rfl

theorem pathsBelow_eq_descendants (only : Option Descendants) (limit depth : Nat) (path : List Json)
    (v : Json) : pathsBelow only limit depth path v =
      if v.tooDeep limit depth then .error (.tooDeep limit)
      else .ok (pathsTo only path v.descendants) := by
  induction v using inductionOnChildren generalizing depth path with
  | h v ih =>
    have hat (m) (hm : m ∈ v.children) : pathsAt only limit depth path m =
        if m.2.tooDeep limit (deeper depth) then .error (.tooDeep limit)
        else .ok (pathsTo only path
          (([m.1], m.2) :: m.2.descendants.map fun n => (m.1 :: n.1, n.2))) := by
      rw [pathsAt, ih m.1 m.2 hm, pathsTo_cons]
      split <;> rfl
    rw [pathsBelow_eq, mapM_eq_ite hat, tooDeep_eq, descendants_eq, pathsTo_flatMap]
    by_cases hd : limit < depth
    case pos => simp [hd]
    case neg =>
      simp only [hd, if_false, decide_false, Bool.false_or]
      split <;> rfl

theorem paths_eq (only : Option Descendants) (limit depth : Nat) (v : Json) :
    v.paths only limit depth =
      if v.tooDeep limit depth then .error (.tooDeep limit)
      else .ok (arr (pathsTo only [] v.descendants)) := by
  rw [paths, pathsBelow_eq_descendants]
  split <;> rfl

-- Every value is an object, an array or a scalar.
theorem kinds_perm (ns : List (Location × Json)) :
    (ns.filter (·.2.kind == .object) ++ ns.filter (·.2.kind == .array) ++
      ns.filter (!·.2.isContainer)).Perm ns := by
  have hobjects := List.filter_append_perm (·.2.kind == .object) ns
  have harrays := List.filter_append_perm (·.2.kind == .array) (ns.filter (!·.2.kind == .object))
  have hkind (c : Json) : (c.kind == .array && !c.kind == .object) = (c.kind == .array) ∧
      (!c.kind == .array && !c.kind == .object) = !c.isContainer := by
    cases c <;> exact ⟨rfl, rfl⟩
  simp only [List.filter_filter, hkind] at harrays
  rw [List.append_assoc]
  exact (harrays.append_left _).trans hobjects

-- The paths of a document are those to all values inside of it, in pre-order and each told once. A
-- kind that is asked for leaves out those to other values. A value that lies too deep makes all of
-- this fail, whether its path would have been told or not. Only below the largest depth of all no
-- value lies too deep, since the depths go around there.
theorem paths_eq_descendants (o : Options) (depth : Nat) (hv : v.WellFormed) :
    let path (n : Location × Json) : Json := .arr (n.1.map Step.toJson)
    let ns := v.descendants
    let objects := ns.filter (·.2.kind == .object)
    let arrays := ns.filter (·.2.kind == .array)
    let scalars := ns.filter (!·.2.isContainer)
    let deep := ∃ l c, v.at? l = some c ∧ o.maxDepth < depth + l.length
    let around := depth ≤ o.maxDepth ∧ 0xFFFFFFFFFFFFFFFF ≤ o.maxDepth
    (deep ∧ ¬ around →
      ∀ only, Builtin.apply o depth v (.paths only) = .error (.tooDeep o.maxDepth)) ∧
    (¬ deep ∨ around →
      Builtin.apply o depth v (.paths none) = .ok (arr (ns.map path)) ∧
      Builtin.apply o depth v (.paths (some .objects)) = .ok (arr (objects.map path)) ∧
      Builtin.apply o depth v (.paths (some .arrays)) = .ok (arr (arrays.map path)) ∧
      Builtin.apply o depth v (.paths (some .scalars)) = .ok (arr (scalars.map path))) ∧
    (∀ l c, (l, c) ∈ ns ↔ l ≠ [] ∧ v.at? l = some c) ∧
    (ns.map (·.1)).Pairwise v.Precedes ∧
    (ns.map path).Nodup ∧
    ((objects ++ arrays ++ scalars).map path).Perm (ns.map path) := by
  intro path ns objects arrays scalars deep around
  have hd := hv.distinct
  have happly (only) : Builtin.apply o depth v (.paths only) =
      if v.tooDeep o.maxDepth depth then .error (.tooDeep o.maxDepth)
      else .ok (arr (pathsTo only [] v.descendants)) :=
    paths_eq only o.maxDepth depth v
  have hall : pathsTo none [] v.descendants = ns.map path := by
    simp [pathsTo, Descendants.accepts, path, ns]
  refine ⟨fun h only => ?deep, fun h => ?shallow, fun l c => mem_descendants hd,
    pairwise_descendants hd, ?once, (kinds_perm ns).map path⟩
  case deep =>
    rw [happly, if_pos ((tooDeep_iff hd).mpr h)]
  case shallow =>
    have hnot : ¬ v.tooDeep o.maxDepth depth = true := fun hdeep =>
      have ⟨hdeep, haround⟩ := (tooDeep_iff hd).mp hdeep
      h.elim (· hdeep) haround
    have hok (only) : Builtin.apply o depth v (.paths only) = .ok (arr (pathsTo only [] ns)) := by
      rw [happly, if_neg hnot]
    exact ⟨hall ▸ hok none, hok _, hok _, hok _⟩
  case once =>
    have hinj : Function.Injective fun l : Location => arr (l.map Step.toJson) :=
      fun _ _ h => List.map_injective_iff.mpr Step.toJson_injective (arr.inj h)
    have hn := (nodup_descendants hd).2.map hinj
    rwa [List.map_map] at hn

theorem paths_eq_descendants_nested :
    let v : Json := .obj [("a", .arr [.int 1, .obj [("b", .str "x")]]), ("c", .null)]
    Builtin.apply { Options.default with maxDepth := 5 } 2 v (.paths none) = .ok (.arr
      [.arr [.str "a"], .arr [.str "a", .int 0], .arr [.str "a", .int 1],
        .arr [.str "a", .int 1, .str "b"], .arr [.str "c"]]) ∧
    Builtin.apply { Options.default with maxDepth := 5 } 2 v (.paths (some .scalars)) = .ok (.arr
      [.arr [.str "a", .int 0], .arr [.str "a", .int 1, .str "b"], .arr [.str "c"]]) ∧
    Builtin.apply { Options.default with maxDepth := 5 } 3 v (.paths (some .arrays)) =
      .error (.tooDeep 5) ∧
    Builtin.apply { Options.default with maxDepth := 0xFFFFFFFFFFFFFFFF } 0xFFFFFFFFFFFFFFFF v
      (.paths (some .arrays)) = .ok (.arr [.arr [.str "a"]]) := by
  intro v
  have hv : v.WellFormed := by
    simp [v, WellFormed, WellFormedMembers, WellFormedItems, Members.keys, int]
  have hshallow : ¬ ∃ l c, v.at? l = some c ∧ 5 < 2 + l.length := by
    have hd : ∀ n ∈ v.preorder [], ¬ 5 < 2 + n.1.length := by decide
    rintro ⟨l, c, h, hlt⟩
    exact hd (l, c) ((mem_preorder hv.distinct).mpr ⟨l, rfl, h⟩) hlt
  obtain ⟨_, hok, _⟩ := paths_eq_descendants { Options.default with maxDepth := 5 } 2 hv
  obtain ⟨hdeep, _⟩ := paths_eq_descendants { Options.default with maxDepth := 5 } 3 hv
  obtain ⟨_, haround, _⟩ := paths_eq_descendants
    { Options.default with maxDepth := 0xFFFFFFFFFFFFFFFF } 0xFFFFFFFFFFFFFFFF hv
  obtain ⟨hall, _, _, hscalars⟩ := hok (.inl hshallow)
  refine ⟨hall, hscalars, hdeep ⟨⟨[.key "a", .index 1, .key "b"], .str "x", rfl, ?_⟩, ?_⟩ _, ?_⟩
  case refine_1 => decide
  case refine_2 => decide
  case refine_3 => exact (haround (.inr ⟨Nat.le_refl _, Nat.le_refl _⟩)).2.2.1

end Json

end JsonQuery
