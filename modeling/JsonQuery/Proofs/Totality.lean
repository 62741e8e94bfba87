import JsonQuery.Proofs.Concatenation
import JsonQuery.Proofs.SliceBounds

namespace JsonQuery

variable {α β : Type} {may may' : Error → Prop} {limit : Nat}

-- A computation that has a result, or fails in one of some ways.
inductive Settles (may : Error → Prop) : Except Error α → Prop
  | ok (x : α) : Settles may (.ok x)
  | error {e : Error} (h : may e) : Settles may (.error e)

namespace Settles

variable {x : Except Error α}

theorem mono (h : Settles may x) (hm : ∀ {e}, may e → may' e) : Settles may' x := by
  cases h with
  | ok x    => exact .ok x
  | error h => exact .error (hm h)

theorem bind {f : α → Except Error β} (h : Settles may x) (hf : ∀ a, Settles may (f a)) :
    Settles may (x >>= f) := by
  cases h with
  | ok x    => exact hf x
  | error h => exact .error h

theorem map (h : Settles may x) (f : α → β) : Settles may (x.map f) := by
  cases h with
  | ok x    => exact .ok (f x)
  | error h => exact .error h

theorem mapM {f : α → Except Error β} {xs : List α} (h : ∀ x ∈ xs, Settles may (f x)) :
    Settles may (xs.mapM f) := by
  induction xs with
  | nil => exact .ok []
  | cons x rest ih =>
    have ⟨hx, hr⟩ := List.forall_mem_cons.mp h
    rw [List.mapM_cons]
    exact hx.bind fun y => (ih hr).bind fun ys => .ok _

theorem guard {depth : Nat} (ht : may (.tooDeep limit)) (h : Settles may x) :
    Settles may (if limit < depth then .error (.tooDeep limit) else x) := by
  split
  case isTrue  => exact .error ht
  case isFalse => exact h

end Settles

namespace Run

-- The same for a run.
def Settles (may : Error → Prop) (r : Run α) : Prop := ∀ e, r.error? = some e → may e

variable {r : Run α}

theorem settles_fail {e : Error} (h : may e) : (fail e : Run α).Settles may :=
  fun _ he => Option.some.inj he ▸ h

theorem settles_one (x : α) : (one x).Settles may :=
  fun _ he => nomatch he

theorem settles_inTurn {f : α → Run β} {xs : List α} (h : ∀ x ∈ xs, (f x).Settles may) :
    (inTurn f xs).Settles may := by
  intro e he
  have ⟨x, hx, he⟩ := error?_inTurn_eq_some he
  exact h x hx e he

theorem Settles.all (h : r.Settles may) : JsonQuery.Settles may r.all := by
  rw [Run.all]
  cases hr : r.error? with
  | some e => exact .error (h e hr)
  | none   => exact .ok r.found

theorem Settles.first? (h : r.Settles may) : JsonQuery.Settles may r.first? := by
  rw [Run.first?]
  cases r.found with
  | cons x rest => exact .ok (some x)
  | nil =>
    cases hr : r.error? with
    | some e => exact .error (h e hr)
    | none   => exact .ok none

theorem Settles.once (h : r.Settles may) : r.once.Settles may := by
  cases hr : r.found with
  | nil =>
    rw [once_of_found_eq_nil hr]
    exact h
  | cons x rest =>
    rw [once_of_found hr]
    exact settles_one x

end Run

namespace Json

variable {only : Option Descendants}

mutual

theorem pathsBelow_settles (ht : may (.tooDeep limit)) : (v : Json) → (depth : Nat) →
    (path : List Json) → Settles may (pathsBelow only limit depth path v)
  | v, depth, path => by
    cases v <;> simp only [pathsBelow]
    case arr items   => exact .guard ht (pathsOfItems_settles ht items depth 0 path)
    case obj members => exact .guard ht (pathsOfMembers_settles ht members depth path)
    all_goals exact .guard ht (.ok [])

theorem pathsOfItems_settles (ht : may (.tooDeep limit)) : (items : List Json) →
    (depth i : Nat) → (path : List Json) → Settles may (pathsOfItems only limit depth path i items)
  | [], _, _, _ => .ok []
  | v :: rest, depth, i, path => by
    simp only [pathsOfItems]
    refine (pathsBelow_settles ht v (deeper depth) _).bind fun below => ?_
    exact (pathsOfItems_settles ht rest depth (i + 1) path).bind fun others => .ok _

theorem pathsOfMembers_settles (ht : may (.tooDeep limit)) : (members : List (String × Json)) →
    (depth : Nat) → (path : List Json) →
    Settles may (pathsOfMembers only limit depth path members)
  | [], _, _ => .ok []
  | (k, v) :: rest, depth, path => by
    simp only [pathsOfMembers]
    refine (pathsBelow_settles ht v (deeper depth) _).bind fun below => ?_
    exact (pathsOfMembers_settles ht rest depth path).bind fun others => .ok _

end

mutual

theorem flattenItem_settles (ht : may (.tooDeep limit)) : (v : Json) → (levels : Option Nat) →
    (depth : Nat) → Settles may (flattenItem limit levels depth v)
  | v, levels, depth => by
    cases v
    case arr items =>
      simp only [flattenItem]
      split
      case isTrue  => exact .ok _
      case isFalse => exact .guard ht (flattenItems_settles ht items _ (deeper depth))
    all_goals exact .ok _

theorem flattenItems_settles (ht : may (.tooDeep limit)) : (items : List Json) →
    (levels : Option Nat) → (depth : Nat) → Settles may (flattenItems limit levels depth items)
  | [], _, _ => .ok []
  | v :: rest, levels, depth => by
    simp only [flattenItems]
    refine (flattenItem_settles ht v levels depth).bind fun first => ?_
    exact (flattenItems_settles ht rest levels depth).bind fun others => .ok _

end

theorem paths_settles (ht : may (.tooDeep limit)) (v : Json) (depth : Nat) :
    Settles may (v.paths only limit depth) :=
  (pathsBelow_settles ht v depth []).map arr

theorem flatten_settles (ht : may (.tooDeep limit)) (v : Json) (levels : Option Nat)
    (depth : Nat) : Settles may (v.flatten limit levels depth) := by
  cases v
  case arr items => exact .guard ht ((flattenItems_settles ht items levels depth).map arr)
  all_goals exact .ok _

end Json

-- A slice that comes to an index at which an array of this length has no element.
def Slice.Strays (s : Slice) (len i : Nat) : Prop := i ∈ s.indices len ∧ len ≤ i

theorem Slice.Strays.goes_around {s : Slice} {len i : Nat} (h : s.Strays len i)
    (hf : s.fits = true) (hl : len < 0x8000000000000000) :
    0x8000000000000000 < len + s.stride := by
  by_contra hr
  have := lt_of_mem_indices hf hl (Int.not_lt.mp hr) h.1
  exact absurd h.2 (Nat.not_le_of_lt this)

example : (⟨some 1, none, some 0x7fffffffffffffff⟩ : Slice).Strays 2 0x8000000000000000 :=
  ⟨by decide, by decide⟩

mutual

-- All slices of a path, with those of the paths that its functions and constructs evaluate.
def Segment.slices : Segment → List Slice
  | .slice s          => [s]
  | .call f _         => f.slices
  | .construct fields => Path.slicesOfFields fields
  | _                 => []

def Path.slices : List Segment → List Slice
  | []        => []
  | s :: rest => s.slices ++ Path.slices rest

def Path.slicesOfFields : List (String × List Segment) → List Slice
  | []             => []
  | (_, p) :: rest => Path.slices p ++ Path.slicesOfFields rest

def Builtin.slices : Builtin → List Slice
  | .map m => m.slices
  | _      => []

def Mapping.slices : Mapping → List Slice
  | .path p        => Path.slices p
  | .arithmetic .. => []

end

-- Why a read that is not strict fails: it goes too deep, or one of its slices leads out of an array.
inductive Lapse (limit : Nat) (slices : List Slice) : Error → Prop
  | depth : Lapse limit slices (.tooDeep limit)
  | stray (s : Slice) {len i : Nat} (mem : s ∈ slices) (stray : s.Strays len i) :
      Lapse limit slices (.outOfBounds i len)

theorem Lapse.mono {slices slices' : List Slice} (h : slices ⊆ slices') {e : Error}
    (he : Lapse limit slices e) : Lapse limit slices' e := by
  cases he with
  | depth              => exact .depth
  | stray s mem hstray => exact .stray s (h mem) hstray

theorem Spot.part_settles (u : Spot) (s : Slice) (items : List Json) :
    Settles (Lapse limit [s]) (u.part s items) := by
  refine Settles.map ?_ _
  rw [Slice.cut_eq]
  cases hf : (s.indices items.length).find? (items.length ≤ ·) with
  | none   => exact .ok _
  | some i =>
    have hi : items.length ≤ i := by simpa using List.find?_some hf
    exact .error (.stray s (List.mem_singleton.mpr rfl) ⟨List.mem_of_find?_eq_some hf, hi⟩)

variable {o : Options}

theorem Segment.visit_addressable_settles (ho : o.strict = false) {s : Segment}
    (ha : s.isAddressable = true) (last : Bool) (depth : Nat) (u : Spot) :
    Settles (Lapse limit s.slices) (s.visit o last depth u) := by
  cases s <;> simp only [visit, stuck_of_not_strict ho]
  case slice sl =>
    cases u.value
    case arr items => exact (u.part_settles sl items).map _
    all_goals exact .ok _
  case key name q =>
    cases u.value <;> simp only
    case obj ms => split <;> exact .ok _
    all_goals exact .ok _
  case index i q =>
    cases u.value <;> simp only
    case arr items =>
      cases resolveIndex i items.length <;> simp only
      case some n => exact .ok _
      case none   => split <;> exact .ok _
    all_goals split <;> exact .ok _
  case children q | elements q | selector p text => cases u.value <;> exact .ok _
  case call f text | literal x | construct fields => cases ha

mutual

theorem Segment.visit_settles (ho : o.strict = false) : (s : Segment) → (last : Bool) →
    (depth : Nat) → (u : Spot) →
    Settles (Lapse o.maxDepth s.slices) (s.visit o last depth u)
  | s, last, depth, u => by
    cases s
    case call f text      => exact (Builtin.evaluate_settles ho f depth u.value).map _
    case literal x        => exact .ok _
    case construct fields => exact (Path.evaluateFields_settles ho fields (deeper depth) u.value).map _
    all_goals exact Segment.visit_addressable_settles ho rfl last depth u

theorem Path.evaluate_settles (ho : o.strict = false) : (p : List Segment) → (depth : Nat) →
    (u : Spot) → (Path.evaluate o p depth u).Settles (Lapse o.maxDepth (Path.slices p))
  | [], depth, u => by
    rw [Path.evaluate]
    split
    case isTrue  => exact Run.settles_fail .depth
    case isFalse => exact Run.settles_one _
  | s :: rest, depth, u => by
    rw [Path.evaluate, Path.slices]
    split
    case isTrue  => exact Run.settles_fail .depth
    case isFalse =>
      have hv := Segment.visit_settles ho s rest.isEmpty depth u
      generalize s.visit o rest.isEmpty depth u = y at hv
      cases hv with
      | error h => exact Run.settles_fail (h.mono (List.subset_append_left _ _))
      | ok y =>
        cases y with
        | inl m  => exact Run.settles_one m
        | inr ws =>
          refine Run.settles_inTurn fun w _ e he => ?_
          have hw := Path.evaluate_settles ho rest (deeper depth) w e he
          exact hw.mono (List.subset_append_right _ _)

theorem Path.evaluateFields_settles (ho : o.strict = false) :
    (fields : List (String × List Segment)) → (depth : Nat) → (v : Json) →
    Settles (Lapse o.maxDepth (Path.slicesOfFields fields)) (Path.evaluateFields o fields depth v)
  | [], _, _ => .ok []
  | (name, p) :: rest, depth, v => by
    rw [Path.evaluateFields, Path.slicesOfFields]
    have hp := (Path.evaluate_settles ho p depth (.root v)).all
    have hr := Path.evaluateFields_settles ho rest depth v
    refine (hp.mono (Lapse.mono (List.subset_append_left _ _))).bind fun found => ?_
    exact (hr.mono (Lapse.mono (List.subset_append_right _ _))).bind fun others => .ok _

theorem Builtin.evaluate_settles (ho : o.strict = false) : (f : Builtin) → (depth : Nat) →
    (v : Json) → Settles (Lapse o.maxDepth f.slices) (f.evaluate o depth v)
  | f, depth, v => by
    cases f
    case map m          => exact Mapping.evaluate_settles ho m depth v
    case paths only     => exact Json.paths_settles .depth v depth
    case flatten levels => exact Json.flatten_settles .depth v levels depth
    all_goals exact .ok _

theorem Mapping.evaluate_settles (ho : o.strict = false) : (m : Mapping) → (depth : Nat) →
    (v : Json) → Settles (Lapse o.maxDepth m.slices) (m.evaluate o depth v)
  | .path p, depth, v => by
    cases v
    case arr items =>
      refine Settles.map (Settles.mapM fun x _ => ?_) _
      exact (Path.evaluate_settles ho p (deeper depth) (.root x)).first?.map _
    all_goals exact .ok _
  | .arithmetic op operand, _, v => by
    cases v <;> exact .ok _

end

theorem Path.told_settles (ho : o.strict = false) (p : Path) (v : Json) :
    (p.cursor o v).told.Settles (Lapse o.maxDepth (Path.slices p)) := by
  have hr : (p.cursor o v).run.Settles (Lapse o.maxDepth (Path.slices p)) := by
    rw [run_cursor]
    exact evaluate_settles ho p 0 (.root v)
  rw [Cursor.told]
  split
  case isTrue  => exact hr.once
  case isFalse => exact hr

namespace Query

theorem first?_settles (ho : o.strict = false) (p : Path) (v : Json) :
    Settles (Lapse o.maxDepth (Path.slices p)) ((Query.mk p o).first? v) := by
  rw [first?, Cursor.first?_eq_run, Path.run_cursor]
  exact (Path.evaluate_settles (o := { o with onlyFirst := true }) ho p 0 (.root v)).first?.map _

-- A read that is not strict has a result, or else it goes deeper than it may, unless one of its slices
-- leads out of an array. For that the slice has to take a step that goes around at the end of the
-- 64 bit integers.
theorem lenient_settles (p : Path) (o : Options) (v : Json) (ho : o.strict = false) :
    let q := Query.mk p o
    (Settles (Lapse o.maxDepth (Path.slices p)) (q.get v) ∧
      Settles (Lapse o.maxDepth (Path.slices p)) (q.first? v) ∧
      Settles (Lapse o.maxDepth (Path.slices p)) (q.has v)) ∧
    (∀ (f : Builtin) depth x, Settles (Lapse o.maxDepth f.slices) (f.apply o depth x)) ∧
    ∀ (s : Slice) len i, s.Strays len i → s.fits = true → len < 0x8000000000000000 →
      0x8000000000000000 < len + s.stride := by
  intro q
  have hfirst : Settles (Lapse o.maxDepth (Path.slices p)) (q.first? v) := first?_settles ho p v
  refine ⟨⟨?get, hfirst, hfirst.map _⟩, fun f depth x => ?apply, fun s len i h => h.goes_around⟩
  case get =>
    rw [get, cursor, Cursor.all_eq_told]
    exact (Path.told_settles ho p v).all.map _
  case apply =>
    rw [← Builtin.evaluate_eq]
    exact Builtin.evaluate_settles ho f depth x

-- Kinds of values that do not fit and keys that are not there are no errors, wherever they occur.
theorem lenient_settles_nested :
    let row : Slice := ⟨none, some 1, none⟩
    let p : Path := [.elements false, .construct [("first", [.slice row, .elements false]),
      ("names", [.call (.map (.path [.key "name" false])) "map(name)"])]]
    let v : Json := .arr [.arr [.obj [("name", .int 1)], .null], .int 2]
    Settles (Lapse 100 [row]) ((Query.mk p .default).get v) ∧
    (Query.mk p .default).get v = .ok [
      .obj [("first", .obj [("name", .int 1)]), ("names", .arr [.int 1, .null])],
      .obj [("first", .null), ("names", .null)]] := by
  intro row p v
  have ⟨⟨hget, _⟩, _⟩ := lenient_settles p .default v rfl
  exact ⟨hget, (get_eq_values rfl p v).trans rfl⟩

end Query

end JsonQuery
