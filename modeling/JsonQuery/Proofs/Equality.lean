import Mathlib.Data.List.Perm.Subperm
import JsonQuery.Builtin.Order
import JsonQuery.Proofs.Merging
import JsonQuery.Proofs.Preorder
import JsonQuery.Proofs.Without

namespace JsonQuery

namespace Binary64

variable {x y z : Binary64}

theorem equals_iff : x.equals y = true ↔
    (∃ a b : Finite, x = .finite a ∧ y = .finite b ∧ a.units = b.units) ∨
      ∃ neg, x = .infinite neg ∧ y = .infinite neg := by
  cases x <;> cases y
  case finite.finite => simp [equals_finite]
  case infinite.infinite => simpa [equals, compare?] using eq_comm
  all_goals
    simp only [equals, compare?]
    try split
    all_goals simp

theorem equals_symm (h : x.equals y = true) : y.equals x = true := by
  rcases equals_iff.mp h with ⟨a, b, rfl, rfl, hu⟩ | ⟨neg, rfl, rfl⟩
  case inl => exact equals_finite.mpr hu.symm
  case inr => exact h

theorem equals_trans (h : x.equals y = true) (h' : y.equals z = true) : x.equals z = true := by
  rcases equals_iff.mp h with ⟨a, b, rfl, rfl, hab⟩ | ⟨neg, rfl, rfl⟩
  case inl =>
    rcases equals_iff.mp h' with ⟨_, c, e, rfl, hbc⟩ | ⟨_, e, _⟩ <;> cases e
    exact equals_finite.mpr (hab.trans hbc)
  case inr => exact h'

end Binary64

namespace Json

variable {v w u : Json} {as bs ms ns : List (String × Json)} {items seen before : List Json}

-- Whether two values are equal as far as they can be compared without their children.
def Resembles (v w : Json) : Prop := v.outline.equal w.outline = true

theorem Resembles.refl (v : Json) : v.Resembles v := by
  cases v <;> simp [Resembles, outline, equal, equalItems, equalMembers,
    Binary64.equals_self (Number.approx_ne_nan _)]

theorem Resembles.symm (h : v.Resembles w) : w.Resembles v := by
  unfold Resembles at *
  cases v <;> cases w <;> simp_all [outline, equal]
  exact Binary64.equals_symm h

theorem Resembles.trans (h : v.Resembles w) (h' : w.Resembles u) : v.Resembles u := by
  unfold Resembles at *
  cases v <;> cases w <;> simp only [outline, equal, Bool.false_eq_true] at h <;>
    cases u <;> simp_all [outline, equal]
  exact Binary64.equals_trans h h'

theorem equalItems_iff {xs ys : List Json} : equalItems xs ys = true ↔
    ∀ i : Nat, Option.Rel (·.equal · = true) xs[i]? ys[i]? := by
  induction xs generalizing ys with
  | nil =>
    cases ys with
    | nil       => simp [equalItems]
    | cons y ys =>
      refine iff_of_false Bool.false_ne_true fun h => ?_
      cases h 0
  | cons x xs ih =>
    cases ys with
    | nil =>
      refine iff_of_false Bool.false_ne_true fun h => ?_
      cases h 0
    | cons y ys =>
      rw [equalItems, Bool.and_eq_true, ih]
      constructor
      case mp =>
        rintro ⟨h, hr⟩ (_ | i)
        · exact .some h
        · exact hr i
      case mpr =>
        intro h
        refine ⟨?_, fun i => h (i + 1)⟩
        cases h 0
        assumption

theorem get?_of_equalMembers (h : equalMembers as bs = true) {m : String × Json} (hm : m ∈ as) :
    ∃ y, Members.get? bs m.1 = some y ∧ m.2.equal y = true := by
  induction as with
  | nil => cases hm
  | cons a rest ih =>
    obtain ⟨h, hr⟩ := Bool.and_eq_true_iff.mp h
    cases List.mem_cons.mp hm
    case inr hm => exact ih hr hm
    case inl e =>
      subst e
      split at h
      case _ y hy => exact ⟨y, hy, h⟩
      case _ => cases h

-- An object with as many members as another one that has all their keys has no other keys.
theorem equal_obj_iff (ha : (Members.keys as).Nodup) (hb : (Members.keys bs).Nodup) :
    (obj as).equal (obj bs) = true ↔
      ∀ k, Option.Rel (·.equal · = true) (Members.get? as k) (Members.get? bs k) := by
  rw [equal, Bool.and_eq_true, beq_iff_eq]
  constructor
  case mp =>
    rintro ⟨hl, hm⟩ k
    have hs : Members.keys as ⊆ Members.keys bs := by
      intro k hk
      obtain ⟨m, hm', rfl⟩ := List.mem_map.mp hk
      obtain ⟨y, hy, _⟩ := get?_of_equalMembers hm hm'
      exact Members.mem_keys_of_get? hy
    have hp : (Members.keys as).Perm (Members.keys bs) :=
      (List.subperm_of_subset ha hs).perm_of_length_le (by simp [Members.keys, hl])
    cases hk : Members.get? as k with
    | some x =>
      obtain ⟨y, hy, he⟩ := get?_of_equalMembers hm (Members.mem_of_get? hk)
      rw [hy]
      exact .some he
    | none =>
      have hk : k ∉ Members.keys bs := fun h =>
        Members.get?_eq_none_iff.mp hk (hp.mem_iff.mpr h)
      rw [Members.get?_eq_none_iff.mpr hk]
      exact .none
  case mpr =>
    intro h
    have hk (k : String) : k ∈ Members.keys as ↔ k ∈ Members.keys bs := by
      have h := h k
      simp only [← Members.contains_iff_mem_keys, Members.contains]
      cases ha : Members.get? as k <;> cases hb : Members.get? bs k <;> simp_all
    have hp := (List.perm_ext_iff_of_nodup ha hb).mpr hk
    refine ⟨by simpa [Members.keys] using hp.length_eq, equalMembers_of_forall fun m hm => ?_⟩
    have h := h m.1
    rw [Members.get?_of_mem ha hm] at h
    cases hb : Members.get? bs m.1 with
    | none   => simp [hb] at h
    | some y => exact ⟨y, rfl, by simpa [hb] using h⟩

-- Two values are equal if they are so without their children, and if equal ones are reached by
-- the same steps.
theorem equal_iff_children (hv : v.WellFormed) (hw : w.WellFormed) : v.equal w = true ↔
    v.Resembles w ∧ ∀ s, Option.Rel (·.equal · = true) (v.child? s) (w.child? s) := by
  cases v <;> cases w
  case arr.arr xs ys =>
    have he : (arr xs).Resembles (arr ys) := rfl
    simp only [equal, he, true_and, equalItems_iff]
    refine ⟨fun h s => ?_, fun h i => h (.index i)⟩
    cases s with
    | key k   => exact .none
    | index i => exact h i
  case obj.obj as bs =>
    have he : (obj as).Resembles (obj bs) := rfl
    rw [equal_obj_iff hv.keys_nodup hw.keys_nodup]
    simp only [he, true_and]
    refine ⟨fun h s => ?_, fun h k => h (.key k)⟩
    cases s with
    | key k   => exact h k
    | index i => exact .none
  all_goals simp [Resembles, outline, equal, child?]

-- Equality looks at what stands at the same locations, in whatever order the keys are.
theorem equal_iff_at (hv : v.WellFormed) (hw : w.WellFormed) :
    v.equal w = true ↔ ∀ l, Option.Rel Resembles (v.at? l) (w.at? l) := by
  induction v using inductionOnChildren generalizing w with
  | h v ih =>
    rw [equal_iff_children hv hw]
    have ih (s : Step) : Option.Rel (·.equal · = true) (v.child? s) (w.child? s) ↔
        ∀ l, Option.Rel Resembles (v.at? (s :: l)) (w.at? (s :: l)) := by
      simp only [at?_cons]
      cases hc : v.child? s <;> cases hd : w.child? s
      case some.some c d =>
        simpa using ih s c (mem_children_of_child? hc) (hv.child? hc) (hw.child? hd)
      case none.none => simp
      case none.some => exact iff_of_false (nomatch ·) fun h => nomatch h []
      case some.none => exact iff_of_false (nomatch ·) fun h => nomatch h []
    simp only [ih]
    constructor
    case mp =>
      rintro ⟨h, hc⟩ (_ | ⟨s, l⟩)
      · exact .some h
      · exact hc s l
    case mpr =>
      intro h
      exact ⟨by simpa [at?_nil] using h [], fun s l => h (s :: l)⟩

theorem equal_symm (hv : v.WellFormed) (hw : w.WellFormed) (h : v.equal w = true) :
    w.equal v = true := by
  refine (equal_iff_at hw hv).mpr fun l => ?_
  have h := (equal_iff_at hv hw).mp h l
  generalize v.at? l = c at h ⊢
  generalize w.at? l = d at h ⊢
  cases h with
  | some h => exact .some h.symm
  | none   => exact .none

theorem equal_trans (hv : v.WellFormed) (hw : w.WellFormed) (hu : u.WellFormed)
    (h : v.equal w = true) (h' : w.equal u = true) : v.equal u = true := by
  refine (equal_iff_at hv hu).mpr fun l => ?_
  have h := (equal_iff_at hv hw).mp h l
  have h' := (equal_iff_at hw hu).mp h' l
  generalize v.at? l = c at h ⊢
  generalize w.at? l = d at h h'
  generalize u.at? l = e at h' ⊢
  cases h with
  | none => cases h' with | none => exact .none
  | some h => cases h' with | some h' => exact .some (h.trans h')

theorem equal_equivalence :
    Equivalence fun v w : { v : Json // v.WellFormed } => v.1.equal w.1 = true where
  refl v := equal_self v.2
  symm {v w} := equal_symm v.2 w.2
  trans {v w u} := equal_trans v.2 w.2 u.2

theorem equal_obj_of_perm (hw : (obj ms).WellFormed) (h : ms.Perm ns) :
    (obj ms).equal (obj ns) = true := by
  have hn : (Members.keys ns).Nodup := (h.map _).nodup_iff.mp hw.keys_nodup
  refine (equal_obj_iff hw.keys_nodup hn).mpr fun k => ?_
  rw [← Members.get?_perm h hw.keys_nodup]
  cases hk : Members.get? ms k with
  | none   => exact .none
  | some x =>
    exact .some (equal_self (wellFormedMembers_iff.mp hw.2 (k, x) (Members.mem_of_get? hk)))

theorem uniqueFrom_sublist : (uniqueFrom seen items).Sublist items := by
  induction items generalizing seen with
  | nil => exact .slnil
  | cons v rest ih =>
    rw [uniqueFrom]
    split
    case isTrue  => exact ih.cons v
    case isFalse => exact ih.cons_cons v

-- What is kept equals nothing that was kept before.
theorem pairwise_uniqueFrom : (∀ x ∈ uniqueFrom seen items, ∀ s ∈ seen, s.equal x = false) ∧
    (uniqueFrom seen items).Pairwise fun x y => x.equal y = false := by
  induction items generalizing seen with
  | nil => exact ⟨nofun, .nil⟩
  | cons v rest ih =>
    rw [uniqueFrom]
    split
    case isTrue => exact ih
    case isFalse hs =>
      obtain ⟨hd, hp⟩ := @ih (v :: seen)
      refine ⟨fun x hx => ?_, .cons (fun x hx => hd x hx v List.mem_cons_self) hp⟩
      cases List.mem_cons.mp hx
      case inl e => simpa [e] using hs
      case inr hx => exact fun s h => hd x hx s (List.mem_cons_of_mem v h)

theorem uniqueFrom_of_pairwise (h : ∀ x ∈ items, ∀ s ∈ seen, s.equal x = false)
    (hp : items.Pairwise fun x y => x.equal y = false) : uniqueFrom seen items = items := by
  induction items generalizing seen with
  | nil => rfl
  | cons v rest ih =>
    obtain ⟨hv, hp⟩ := List.pairwise_cons.mp hp
    obtain ⟨hs, h⟩ := List.forall_mem_cons.mp h
    have hs : seen.any (·.equal v) = false := by simpa using hs
    rw [uniqueFrom, hs, if_neg Bool.false_ne_true, ih (fun x hx s hm => ?_) hp]
    cases List.mem_cons.mp hm
    case inl e  => exact e ▸ hv x hx
    case inr hm => exact h x hx s hm

-- Equal values equal the same ones.
theorem any_equal_congr (hw : ∀ x ∈ items, x.WellFormed) (hv : v.WellFormed) (hu : u.WellFormed)
    (h : v.equal u = true) : items.any (·.equal v) = items.any (·.equal u) := by
  rw [Bool.eq_iff_iff, List.any_eq_true, List.any_eq_true]
  constructor
  case mp =>
    rintro ⟨x, hx, hxv⟩
    exact ⟨x, hx, equal_trans (hw x hx) hv hu hxv h⟩
  case mpr =>
    rintro ⟨x, hx, hxu⟩
    exact ⟨x, hx, equal_trans (hw x hx) hu hv hxu (equal_symm hv hu h)⟩

-- The elements that are kept are those that no earlier one is equal to. `before` holds the elements
-- in front of the remaining ones, and `seen` stands for all of them.
theorem uniqueFrom_eq (hw : ∀ x ∈ before ++ items, x.WellFormed)
    (hs : ∀ x ∈ items, seen.any (·.equal x) = before.any (·.equal x)) :
    uniqueFrom seen items = (items.zipIdx.filter fun m =>
      !(before ++ items.take m.2).any (·.equal m.1)).map (·.1) := by
  induction items generalizing seen before with
  | nil => rfl
  | cons v rest ih =>
    obtain ⟨hv, hs⟩ := List.forall_mem_cons.mp hs
    have ih (seen : List Json)
        (h : ∀ x ∈ rest, seen.any (·.equal x) = (before ++ [v]).any (·.equal x)) :
        uniqueFrom seen rest = ((rest.zipIdx 1).filter fun m =>
          !(before ++ (v :: rest).take m.2).any (·.equal m.1)).map (·.1) := by
      rw [ih (by simpa using hw) h, List.zipIdx_succ, List.filter_map, List.map_map]
      simp [Function.comp_def]
    obtain ⟨hb, hw⟩ := List.forall_mem_append.mp hw
    obtain ⟨hwv, hw⟩ := List.forall_mem_cons.mp hw
    rw [uniqueFrom, hv, List.zipIdx_cons, List.filter_cons, List.take_zero, List.append_nil]
    cases hany : before.any (·.equal v) with
    | true =>
      refine ih seen fun x hx => ?_
      cases hvx : v.equal x with
      | false => simp [hs x hx, hvx]
      | true  => simp [hs x hx, hvx, ← any_equal_congr hb hwv (hw x hx) hvx, hany]
    | false =>
      refine congrArg (v :: ·) (ih (v :: seen) fun x hx => ?_)
      simp [hs x hx, Bool.or_comm]

-- Of the elements that are equal to a value the first one is kept.
theorem filter_uniqueFrom (hs : ∀ x ∈ seen, x.WellFormed) (hw : ∀ x ∈ items, x.WellFormed)
    (hv : v.WellFormed) : (uniqueFrom seen items).filter (·.equal v) =
      if seen.any (·.equal v) then [] else (items.find? (·.equal v)).toList := by
  induction items generalizing seen with
  | nil => simp [uniqueFrom]
  | cons x rest ih =>
    obtain ⟨hx, hw⟩ := List.forall_mem_cons.mp hw
    rw [uniqueFrom]
    split
    case isTrue hany =>
      rw [ih hs hw]
      cases hxv : x.equal v with
      | false => simp [hxv]
      | true  => simp [← any_equal_congr hs hx hv hxv, hany]
    case isFalse hany =>
      rw [List.filter_cons, ih (List.forall_mem_cons.mpr ⟨hx, hs⟩) hw]
      cases hxv : x.equal v with
      | false => simp [hxv]
      | true  => simp [hxv, ← any_equal_congr hs hx hv hxv, hany]

theorem filter_unique (hw : ∀ x ∈ items, x.WellFormed) (hv : v.WellFormed) :
    (uniqueFrom [] items).filter (·.equal v) = (items.find? (·.equal v)).toList :=
  filter_uniqueFrom nofun hw hv

theorem any_unique (hw : ∀ x ∈ items, x.WellFormed) (hv : v.WellFormed) :
    (uniqueFrom [] items).any (·.equal v) = items.any (·.equal v) := by
  rw [Bool.eq_iff_iff, List.any_eq_true, List.any_eq_true]
  constructor
  case mp => exact fun ⟨x, hx, h⟩ => ⟨x, uniqueFrom_sublist.subset hx, h⟩
  case mpr =>
    rintro ⟨x, hx, h⟩
    cases hy : items.find? (·.equal v) with
    | none   => exact absurd h (List.find?_eq_none.mp hy x hx)
    | some y =>
      have hm : y ∈ (uniqueFrom [] items).filter (·.equal v) := by simp [filter_unique hw hv, hy]
      exact ⟨y, List.mem_filter.mp hm⟩

theorem uniqueFrom_append {rest : List Json} : uniqueFrom seen (items ++ rest) =
    uniqueFrom seen items ++ uniqueFrom ((uniqueFrom seen items).reverse ++ seen) rest := by
  induction items generalizing seen with
  | nil => rfl
  | cons v items ih =>
    rw [List.cons_append, uniqueFrom, uniqueFrom]
    split
    case isTrue  => exact ih
    case isFalse => simp [ih]

-- Equality is an equivalence that sees what stands at which location, and of every class of equal
-- elements of an array exactly the first one is kept, in its place among the others.
theorem unique_keeps_first (hw : (arr items).WellFormed) :
    (Equivalence fun v w : { v : Json // v.WellFormed } => v.1.equal w.1 = true) ∧
    (∀ v w : Json, v.WellFormed → w.WellFormed →
      (v.equal w = true ↔ ∀ l, Option.Rel Resembles (v.at? l) (w.at? l))) ∧
    (∀ ms ns, (obj ms).WellFormed → ms.Perm ns → (obj ms).equal (obj ns) = true) ∧
    ∃ kept, (arr items).unique = arr kept ∧
      kept = (items.zipIdx.filter fun m => !(items.take m.2).any (·.equal m.1)).map (·.1) ∧
      kept.Sublist items ∧
      kept.Pairwise (fun x y => x.equal y = false) ∧
      (∀ x ∈ items, ∃ y, items.find? (·.equal x) = some y ∧ kept.filter (·.equal x) = [y]) ∧
      (arr kept).unique = arr kept := by
  have hi := wellFormedItems_iff.mp hw.2
  have hp : (uniqueFrom [] items).Pairwise fun x y => x.equal y = false := pairwise_uniqueFrom.2
  refine ⟨equal_equivalence, fun _ _ => equal_iff_at, fun _ _ => equal_obj_of_perm,
    uniqueFrom [] items, rfl, ?spec, uniqueFrom_sublist, hp, fun x hx => ?first, ?again⟩
  case spec =>
    have h : uniqueFrom [] items = (items.zipIdx.filter fun m =>
      !([] ++ items.take m.2).any (·.equal m.1)).map (·.1) := uniqueFrom_eq hi fun _ _ => rfl
    simpa using h
  case first =>
    have hf := filter_unique hi (hi x hx)
    cases hy : items.find? (·.equal x) with
    | none   => exact absurd (equal_self (hi x hx)) (List.find?_eq_none.mp hy x hx)
    | some y => exact ⟨y, rfl, by simpa [hy] using hf⟩
  case again => exact congrArg arr (uniqueFrom_of_pairwise nofun hp)

-- The order of the keys does not matter, nor the representation of a number or the sign of zero.
theorem unique_keeps_first_reordered :
    let one : Json :=
      num (.float ⟨false, 0x10000000000000, 1022, by decide, by decide, .inr (by decide)⟩)
    let items := [obj [("a", int 1), ("b", arr [null])], int 0, arr [int 1],
      obj [("b", arr [null]), ("a", one)], num (.float (.zero true)), arr [one, null]]
    let kept := [obj [("a", int 1), ("b", arr [null])], int 0, arr [int 1], arr [one, null]]
    (arr items).WellFormed ∧ (arr items).unique = arr kept ∧
      kept.Pairwise (fun x y => x.equal y = false) ∧
      kept.filter (·.equal (num (.float (.zero true)))) = [int 0] ∧
      (arr kept).unique = arr kept := by
  intro one items kept
  have hw : (arr items).WellFormed := by
    simp [items, one, WellFormed, WellFormedItems, WellFormedMembers, Members.keys, Json.int]
  have hkept : (arr items).unique = arr kept := by decide +kernel
  obtain ⟨_, _, _, _, hu, _, _, hp, hf, ha⟩ := unique_keeps_first hw
  cases hu.symm.trans hkept
  obtain ⟨y, hy, hf⟩ := hf (num (.float (.zero true))) (by simp [items])
  have hz : items.find? (·.equal (num (.float (.zero true)))) = some (int 0) := by decide +kernel
  cases hy.symm.trans hz
  exact ⟨hw, hkept, hp, hf, ha⟩

end Json

end JsonQuery
