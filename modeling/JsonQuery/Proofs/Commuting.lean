import JsonQuery.Proofs.Lens
import JsonQuery.Proofs.Without

namespace JsonQuery

def Step.isKey : Step → Bool
  | key _   => true
  | index _ => false

-- Whether none of two locations leads to the other one or through it, and both have a key or both
-- have an index where they part.
def Location.apart : Location → Location → Bool
  | s :: l, t :: m => if s = t then apart l m else s.isKey == t.isKey
  | _,      _      => false

-- The elements of an array that is filled up with nulls to some length.
def stretch (items : List Json) (n : Nat) : List Json :=
  items ++ List.replicate (n - items.length) .null

section

variable {items : List Json} {i j n : Nat}

theorem length_stretch (items : List Json) (n : Nat) :
    (stretch items n).length = max items.length n := by
  simp only [stretch, List.length_append, List.length_replicate]
  omega

theorem getElem?_stretch (items : List Json) (n i : Nat) : (stretch items n)[i]? =
    items[i]?.or (if i < n then some .null else none) := by
  rw [stretch, List.getElem?_append]
  split
  case isTrue h => simp [h]
  case isFalse h =>
    have hi : items[i]? = none := List.getElem?_eq_none (Nat.not_lt.mp h)
    simp only [List.getElem?_replicate, hi, Option.none_or]
    split <;> split <;> first | rfl | omega

theorem stretch_of_le (h : n ≤ items.length) : stretch items n = items := by
  simp [stretch, Nat.sub_eq_zero_of_le h]

-- A write finds null where there is no element, be it filled up or not.
theorem getD_stretch (items : List Json) (n i : Nat) :
    (stretch items n)[i]?.getD .null = items[i]?.getD .null := by
  rw [getElem?_stretch]
  cases items[i]? with
  | some c => rfl
  | none   => simp only [Option.none_or]; split <;> rfl

theorem getD_stretch_set (h : i ≠ j) (items : List Json) (x : Json) :
    ((stretch items (i + 1)).set i x)[j]?.getD .null = items[j]?.getD .null := by
  rw [List.getElem?_set_ne h, getD_stretch]

-- New elements at different indices can come in any order, whatever is filled up for them.
theorem stretch_set_comm (h : i ≠ j) (items : List Json) (x y : Json) :
    (stretch ((stretch items (i + 1)).set i x) (j + 1)).set j y =
      (stretch ((stretch items (j + 1)).set j y) (i + 1)).set i x := by
  refine List.ext_getElem? fun n => ?_
  simp only [List.getElem?_set, getElem?_stretch, length_stretch, List.length_set]
  grind

end

namespace Json

variable {v w c x y : Json} {ms ns : List (String × Json)} {l m : Location} {k : String}

-- Objects are alike if they have the same keys and alike values.
theorem alike_obj (h : ∀ k l, ((Members.get? ms k).bind (·.at? l)).map outline =
    ((Members.get? ns k).bind (·.at? l)).map outline) : (obj ms).Alike (obj ns) := by
  intro l
  cases l with
  | nil => rfl
  | cons s l =>
    rw [at?_cons, at?_cons]
    cases s with
    | key k   => exact h k l
    | index i => rfl

theorem alike_insert (h : v.Alike w) :
    (obj (Members.insert ms k v)).Alike (obj (Members.insert ms k w)) := by
  refine alike_obj fun j l => ?_
  by_cases hk : k = j
  case pos =>
    subst hk
    simpa [Members.get?_insert_self] using h l
  case neg => simp [Members.get?_insert_of_ne hk]

theorem alike_set {items : List Json} (h : v.Alike w) (i : Nat) :
    (arr (items.set i v)).Alike (arr (items.set i w)) := by
  intro l
  cases l with
  | nil => rfl
  | cons s l =>
    rw [at?_cons, at?_cons]
    cases s with
    | key k   => rfl
    | index j =>
      simp only [child?, List.getElem?_set]
      split
      case isTrue  => split <;> first | rfl | exact h l
      case isFalse => rfl

-- New members with different keys can come in any order.
theorem alike_insert_insert {j : String} (h : k ≠ j) (v w : Json) :
    (obj (Members.insert (Members.insert ms k v) j w)).Alike
      (obj (Members.insert (Members.insert ms j w) k v)) := by
  refine alike_obj fun i l => ?_
  by_cases hk : k = i
  case pos =>
    subst hk
    simp [Members.get?_insert_of_ne h.symm, Members.get?_insert_self]
  case neg =>
    by_cases hj : j = i
    case pos =>
      subst hj
      simp [Members.get?_insert_of_ne h, Members.get?_insert_self]
    case neg => simp [Members.get?_insert_of_ne hk, Members.get?_insert_of_ne hj]

-- What a write to an array leaves, and what a write to an object leaves.
theorem put_index (v : Json) (i : Nat) (l : Location) (x : Json) : v.put (.index i :: l) x =
    arr ((stretch v.itemsOf (i + 1)).set i ((v.itemsOf[i]?.getD null).put l x)) := by
  rw [← getD_stretch v.itemsOf (i + 1), put]
  rfl

theorem put_key (v : Json) (k : String) (l : Location) (x : Json) : v.put (.key k :: l) x =
    obj (Members.insert v.membersOf k (((Members.get? v.membersOf k).getD null).put l x)) := by
  rw [put]

theorem itemsOf_arr (items : List Json) : (arr items).itemsOf = items :=
  rfl

theorem membersOf_obj (ms : List (String × Json)) : (obj ms).membersOf = ms :=
  rfl

-- Values at locations that part from each other can be put there in any order.
theorem put_comm (h : l.apart m) (v x y : Json) :
    ((v.put l x).put m y).Alike ((v.put m y).put l x) := by
  induction l generalizing m v with
  | nil => cases h
  | cons s l ih =>
    cases m with
    | nil => cases h
    | cons t m =>
      rw [Location.apart] at h
      split at h
      case isTrue hs =>
        subst hs
        cases s with
        | key k =>
          simp only [put_key, membersOf_obj, Members.get?_insert_self, Members.insert_insert,
            Option.getD_some]
          exact alike_insert (ih h _)
        | index i =>
          have hi : i + 1 ≤ (stretch v.itemsOf (i + 1)).length := by
            rw [length_stretch]
            exact Nat.le_max_right ..
          have hs (c : Json) : stretch ((stretch v.itemsOf (i + 1)).set i c) (i + 1) =
              (stretch v.itemsOf (i + 1)).set i c := stretch_of_le (by simpa using hi)
          simp only [put_index, itemsOf_arr, List.getElem?_set_self hi, Option.getD_some, hs,
            List.set_set]
          exact alike_set (ih h _) i
      case isFalse hs =>
        cases s <;> cases t <;> simp only [Step.isKey, beq_iff_eq, reduceCtorEq] at h
        case key.key k j =>
          have hk : k ≠ j := fun e => hs (congrArg _ e)
          simp only [put_key, membersOf_obj, Members.get?_insert_of_ne hk,
            Members.get?_insert_of_ne hk.symm]
          exact alike_insert_insert hk _ _
        case index.index i j =>
          have hi : i ≠ j := fun e => hs (congrArg _ e)
          simp only [put_index, itemsOf_arr, getD_stretch_set hi, getD_stretch_set hi.symm,
            stretch_set_comm hi]
          exact fun _ => rfl

-- A value in the place of one that exists is put there.
theorem alter?_put_append (hc : v.at? l = some c) (m : Location) (x : Json) :
    v.alter? l (fun _ => some (c.put m x)) = some (v.put (l ++ m) x) := by
  induction l generalizing v with
  | nil =>
    cases hc
    rfl
  | cons s l ih =>
    rw [at?_cons] at hc
    obtain ⟨d, hd, hc⟩ := Option.bind_eq_some_iff.mp hc
    rw [alter?_cons, alterChild?_eq, hd, Option.bind_some, ih hc, Option.map_some, List.cons_append]
    refine congrArg some ?_
    cases v <;> cases s <;> simp only [child?, reduceCtorEq] at hd
    case arr.index items i =>
      obtain ⟨hi, _⟩ := List.getElem?_eq_some_iff.mp hd
      rw [put_index, itemsOf_arr, hd, stretch_of_le hi]
      rfl
    case obj.key ms k =>
      rw [put_key, membersOf_obj, hd]
      rfl

end Json

namespace Segment

variable {s : Segment} {t t' : Step} {c : Json}

theorem isConcrete_of_freshStep? (s : Segment) (h : s.freshStep?.isSome = true) :
    s.isConcrete = true := by
  cases s <;> first | rfl | cases h

theorem eq_of_freshStep? (h : s.freshStep? = some t) (hs : s.steps c = [t']) : t' = t := by
  cases s <;> simp only [freshStep?, reduceCtorEq] at h
  case key name q =>
    cases h
    cases c <;> simp only [steps, List.ne_cons_self] at hs
    split at hs <;> simp_all
  case index i q =>
    split at h <;> cases h
    cases c <;> simp only [steps, reduceCtorEq] at hs
    case isFalse.refl.arr hi items =>
      obtain ⟨n, hn, e⟩ : ∃ n, resolveIndex i items.length = some n ∧ .index n = t' := by
        cases hr : resolveIndex i items.length <;> simp_all
      rw [resolveIndex, if_neg hi] at hn
      split at hn <;> cases hn
      exact e.symm

end Segment

namespace Path

-- The location that a path of keys and indices names in every document. An index that counts from
-- the end names none.
def location (p : Path) : Location := p.filterMap Segment.freshStep?

-- Whether a path has only keys and indices that count from the start.
def countsUp (p : Path) : Bool := p.all fun s => s.freshStep?.isSome

variable {p : Path} {place : Location} {steps : Location}

theorem isConcrete_of_countsUp (h : p.countsUp = true) : p.isConcrete = true :=
  List.all_eq_true.mpr fun s hs => s.isConcrete_of_freshStep? (List.all_eq_true.mp h s hs)

theorem eq_location_of_newSteps (h : newSteps place p = .ok steps) : steps = p.location := by
  induction p generalizing steps with
  | nil =>
    cases h
    rfl
  | cons s p ih =>
    obtain ⟨t, ts, e, ht, hts⟩ := newSteps_cons_eq_ok h
    rw [e, ih hts]
    simp [location, ht]

end Path

namespace View

variable {u w : View} {p rest : Path}

-- Where a path can be followed to lies on its way.
theorem location_of_deepest (h : p.countsUp = true) (ho : u.origin = none)
    (hd : u.deepest p = (w, rest)) : w.location ++ rest.location = u.location ++ p.location := by
  induction p generalizing u with
  | nil =>
    cases hd
    rfl
  | cons s p ih =>
    obtain ⟨hs, hp⟩ : s.freshStep?.isSome = true ∧ Path.countsUp p = true := by
      simpa [Path.countsUp] using h
    obtain ⟨t, ht⟩ := Option.isSome_iff_exists.mp hs
    have hc := s.isConcrete_of_freshStep? hs
    rw [deepest] at hd
    split at hd
    case _ x ws hf =>
      obtain ⟨t', c, hst, _, e⟩ := eq_of_follow hc ho hf
      rw [Segment.eq_of_freshStep? ht hst] at e
      have hl : Path.location (s :: p) = t :: Path.location p := by simp [Path.location, ht]
      rw [ih hp (e ▸ rfl) hd, e, hl, List.append_assoc]
      rfl
    case _ => cases hd; rfl

end View

namespace Path

variable {o : Options} {p q : Path} {v x y r r' : Json} {creating : Bool}

-- A write to a path that counts up puts its value at the location of the path.
theorem eq_put_of_write (h : p.countsUp = true) (hw : p.write o creating .set v x = .ok r) :
    r = v.put p.location x := by
  have hc := isConcrete_of_countsUp h
  rcases hd : (View.root v).deepest p with ⟨w, rest⟩
  obtain ⟨_, steps, y, ⟨hs, _⟩, hy, hr⟩ := (write_eq_ok_iff hc hd).mp hw
  cases hy
  have hl : w.location ++ rest.location = p.location := View.location_of_deepest h rfl hd
  rw [Json.alter?_put_append (View.at?_of_deepest hc hd), eq_location_of_newSteps hs, hl] at hr
  exact (Option.some.inj hr).symm

-- Writes to two paths that part from each other come to the same in any order.
theorem write_comm (o : Options) (v x y : Json) (hp : p.countsUp = true) (hq : q.countsUp = true)
    (h : p.location.apart q.location = true)
    (hr : (p.write o true .set v x).bind (q.write o true .set · y) = .ok r)
    (hr' : (q.write o true .set v y).bind (p.write o true .set · x) = .ok r') : r.Alike r' := by
  obtain ⟨c, hc, hr⟩ := bind_eq_ok_iff.mp hr
  obtain ⟨d, hd, hr'⟩ := bind_eq_ok_iff.mp hr'
  rw [eq_put_of_write hq hr, eq_put_of_write hp hc, eq_put_of_write hp hr', eq_put_of_write hq hd]
  exact Json.put_comm h v x y

theorem write_comm_padded :
    let v : Json := .obj [("a", .int 5)]
    let p : Path := [.key "a" false, .index 2 false, .key "b" false]
    let q : Path := [.key "a" false, .index 2 true, .key "c" false]
    let left : Json := .obj [("a", .arr [.null, .null, .obj [("b", .int 1), ("c", .int 2)]])]
    let right : Json := .obj [("a", .arr [.null, .null, .obj [("c", .int 2), ("b", .int 1)]])]
    p.location.apart q.location = true ∧
      (p.write .default true .set v (.int 1)).bind (q.write .default true .set · (.int 2)) =
        .ok left ∧
      (q.write .default true .set v (.int 2)).bind (p.write .default true .set · (.int 1)) =
        .ok right ∧
      left.Alike right := by
  intro v p q left right
  have h : p.location.apart q.location = true := by decide
  exact ⟨h, rfl, rfl, write_comm .default v (.int 1) (.int 2) (by decide) (by decide) h rfl rfl⟩

end Path

end JsonQuery
