import JsonQuery.Edit.Change
import JsonQuery.Path.Selection

namespace JsonQuery

namespace Json

-- New children in the places of the old ones.
def mapChildren (f : Step → Json → Json) : Json → Json
  | arr items => arr (items.mapIdx fun i x => f (.index i) x)
  | obj ms    => obj (Members.mapValues (fun k x => f (.key k) x) ms)
  | v         => v

variable {f g : Step → Json → Json} {h k : Json → Option Json} {v w c : Json} {s : Step}
  {l : Location}

theorem child?_mapChildren (f : Step → Json → Json) (v : Json) (s : Step) :
    (v.mapChildren f).child? s = (v.child? s).map (f s) := by
  cases v <;> cases s <;> simp [mapChildren, child?, Members.get?_mapValues]

-- A change of one child leaves all others as they are.
theorem alterChild?_mapChildren (hv : v.WellFormed) (hc : v.child? s = some c)
    (hs : h (f s c) = some (g s c)) (ho : ∀ t x, t ≠ s → f t x = g t x) :
    (v.mapChildren f).alterChild? s h = some (v.mapChildren g) := by
  cases v <;> cases s <;> simp only [child?, reduceCtorEq] at hc
  case arr.index items i =>
    obtain ⟨hi, e⟩ := List.getElem?_eq_some_iff.mp hc
    simp only [mapChildren, alterChild?, List.getElem?_mapIdx, hc, Option.map_some,
      Option.bind_some, hs]
    refine congrArg (some ∘ arr) (List.ext_getElem? fun j => ?_)
    by_cases hij : i = j
    case pos =>
      subst hij
      simp [hi, e]
    case neg =>
      have hne : Step.index j ≠ .index i := fun e => hij (Step.index.inj e).symm
      simp [hij, ho _ _ hne]
  case obj.key ms name =>
    have hm := Members.insert_mapValues (f := fun k x => f (.key k) x) (g := fun k x => g (.key k) x)
      hv.keys_nodup hc rfl fun j x hj => ho _ x fun e => hj (Step.key.inj e)
    simp only [mapChildren, alterChild?, Members.get?_mapValues, hc, Option.map_some,
      Option.bind_some, hs, hm]

-- Members behind the changed one stay as they are.
theorem alterChild?_append {ms ms' added : List (String × Json)}
    (e : (obj ms).alterChild? s h = some (obj ms')) :
    (obj (ms ++ added)).alterChild? s h = some (obj (ms' ++ added)) := by
  cases s with
  | index i => cases e
  | key name =>
    simp only [alterChild?, Option.bind_eq_some_iff, Option.map_eq_some_iff, obj.injEq] at e
    obtain ⟨c, hc, d, hd, e⟩ := e
    have hk : name ∈ Members.keys ms := Members.mem_keys_of_get? hc
    simp [alterChild?, Members.get?_append, hc, hd, Members.insert_append_of_mem hk, e]

-- The value with another child in the place of one.
def setChild (v : Json) (s : Step) (x : Json) : Json :=
  match v, s with
  | obj ms,    .key name => obj (Members.insert ms name x)
  | arr items, .index i  => arr (items.set i x)
  | _,         _         => v

theorem alterChild?_eq (v : Json) (s : Step) (h : Json → Option Json) :
    v.alterChild? s h = (v.child? s).bind fun c => (h c).map (v.setChild s) := by
  cases v <;> cases s <;> rfl

theorem alterChild?_eq_none (hc : v.child? s = some c) (hg : h c = none) :
    v.alterChild? s h = none := by
  simp [alterChild?_eq, hc, hg]

theorem alterChild?_congr (hc : v.child? s = some c) (e : h c = k c) :
    v.alterChild? s h = v.alterChild? s k := by
  simp [alterChild?_eq, hc, e]

theorem alterChild?_eq_some_iff : v.alterChild? s h = some w ↔
    ∃ c d, v.child? s = some c ∧ h c = some d ∧ v.setChild s d = w := by
  simp [alterChild?_eq, Option.bind_eq_some_iff, Option.map_eq_some_iff]

theorem child?_setChild (hc : v.child? s = some c) (x : Json) :
    (v.setChild s x).child? s = some x := by
  cases v <;> cases s <;> simp only [child?, reduceCtorEq] at hc
  case arr.index items i =>
    obtain ⟨hi, _⟩ := List.getElem?_eq_some_iff.mp hc
    simp [setChild, child?, hi]
  case obj.key ms name => exact Members.get?_insert_self

theorem setChild_setChild (v : Json) (s : Step) (x y : Json) :
    (v.setChild s x).setChild s y = v.setChild s y := by
  cases v <;> cases s <;> simp [setChild, Members.insert_insert]

theorem setChild_self (hc : v.child? s = some c) : v.setChild s c = v := by
  cases v <;> cases s <;> simp only [child?, reduceCtorEq] at hc
  case arr.index items i =>
    obtain ⟨hi, e⟩ := List.getElem?_eq_some_iff.mp hc
    simp [setChild, ← e]
  case obj.key ms name => exact congrArg obj (Members.insert_self hc)

-- Two changes of a child are one.
theorem alterChild?_alterChild? (e : v.alterChild? s h = some w) :
    w.alterChild? s k = v.alterChild? s fun c => (h c).bind k := by
  obtain ⟨c, d, hc, hd, e⟩ := alterChild?_eq_some_iff.mp e
  have hf : (v.setChild s d).setChild s = v.setChild s := funext (setChild_setChild v s d)
  rw [← e, alterChild?_eq, alterChild?_eq, child?_setChild hc, hc, Option.bind_some, Option.bind_some,
    hd, hf]
  rfl

theorem alterChild?_self (hc : v.child? s = some c) (e : h c = some c) :
    v.alterChild? s h = some v := by
  simp [alterChild?_eq, hc, e, setChild_self hc]

theorem alter?_append (v : Json) (l m : Location) (h : Json → Option Json) :
    v.alter? (l ++ m) h = v.alter? l (·.alter? m h) := by
  induction l generalizing v with
  | nil => rfl
  | cons s l ih => simp [alter?_cons, ih]

theorem alter?_congr (hc : v.at? l = some c) (e : h c = k c) : v.alter? l h = v.alter? l k := by
  induction l generalizing v with
  | nil =>
    cases hc
    exact e
  | cons s l ih =>
    rw [at?_cons] at hc
    obtain ⟨d, hd, hc⟩ := Option.bind_eq_some_iff.mp hc
    exact alterChild?_congr hd (ih hc)

theorem alter?_alter? (e : v.alter? l h = some w) :
    w.alter? l k = v.alter? l fun c => (h c).bind k := by
  induction l generalizing v w with
  | nil =>
    rw [alter?_nil] at e
    simp [alter?_nil, e]
  | cons s l ih =>
    obtain ⟨c, d, hc, hd, _⟩ := alterChild?_eq_some_iff.mp e
    rw [alter?_cons, alter?_cons, alterChild?_alterChild? e]
    exact alterChild?_congr hc (by simpa [hd] using ih hd)

theorem alter?_self (hc : v.at? l = some c) (e : h c = some c) : v.alter? l h = some v := by
  induction l generalizing v with
  | nil =>
    cases hc
    exact e
  | cons s l ih =>
    rw [at?_cons] at hc
    obtain ⟨d, hd, hc⟩ := Option.bind_eq_some_iff.mp hc
    exact alterChild?_self hd (ih hc)

theorem kind_mapChildren (f : Step → Json → Json) (v : Json) : (v.mapChildren f).kind = v.kind := by
  cases v <;> rfl

theorem steps_mapChildren (f : Step → Json → Json) (v : Json) :
    (v.mapChildren f).steps = v.steps := by
  cases v <;> simp [mapChildren, steps]

end Json

-- Only a selector looks into the children.
theorem Segment.steps_congr {s : Segment} {v w : Json} (h : s.isSelector = false)
    (hk : v.kind = w.kind) (hs : v.steps = w.steps) : s.steps v = s.steps w := by
  cases v <;> cases w <;> simp only [Json.kind, reduceCtorEq] at hk
  case arr.arr items items' =>
    have hlen : items.length = items'.length := by
      simpa [Json.steps] using congrArg List.length hs
    cases s <;> simp_all [isSelector, steps]
  case obj.obj ms ms' =>
    have hkeys : Members.keys ms = Members.keys ms' :=
      (List.map_inj_right fun _ _ => Step.key.inj).mp hs
    have hc (k : String) : Members.contains ms k = Members.contains ms' k := by
      rw [Bool.eq_iff_iff, Members.contains_iff_mem_keys, Members.contains_iff_mem_keys, hkeys]
    cases s <;> simp_all [isSelector, steps]
  all_goals cases s <;> simp_all [isSelector, steps]

end JsonQuery
