import Mathlib.Data.List.Induction
import JsonQuery.Builtin.Order
import JsonQuery.Proofs.RoundAlike

namespace JsonQuery

section

variable {α : Type} {items sorted : List α} {b : α}

-- Whether an element of a list is preferred to all before it, and none behind it to this one.
def Chosen (better : α → α → Prop) (items : List α) (b : α) : Prop :=
  ∃ front back, items = front ++ b :: back ∧ (∀ x ∈ front, better x b) ∧ ∀ x ∈ back, ¬ better b x

-- Going through a list and taking every element that is better than the last one taken. Here
-- `better a b` prefers `b` to `a`.
theorem chosen_foldl {better : α → α → Prop} [DecidableRel better]
    (trans : ∀ {a b c}, better a b → better b c → better a c)
    (split : ∀ {a b c}, better a c → ¬ better a b → better b c) (a : α) (items : List α) :
    Chosen better (a :: items)
      (items.foldl (fun best x => if better best x then x else best) a) := by
  induction items using List.reverseRecOn with
  | nil => exact ⟨[], [], rfl, nofun, nofun⟩
  | append_singleton items x ih =>
    obtain ⟨front, back, e, hf, hb⟩ := ih
    rw [List.foldl_append, List.foldl_cons, List.foldl_nil, ← List.cons_append, e]
    split
    case isTrue hx =>
      refine ⟨_, [], rfl, fun y hy => ?_, nofun⟩
      rcases List.mem_append.mp hy with hy | hy
      · exact trans (hf y hy) hx
      · rcases List.mem_cons.mp hy with rfl | hy
        · exact hx
        · exact split hx (hb y hy)
    case isFalse hx =>
      refine ⟨front, back ++ [x], by simp, hf, fun y hy => ?_⟩
      rcases List.mem_append.mp hy with hy | hy
      · exact hb y hy
      · exact List.mem_singleton.mp hy ▸ hx

-- A fold that always takes one of its two arguments stays among the elements.
theorem foldl_congr_of_mem {f g : α → α → α} {a : α} {items : List α}
    (hg : ∀ a b, g a b = a ∨ g a b = b)
    (h : ∀ a' ∈ a :: items, ∀ b ∈ a :: items, f a' b = g a' b) :
    items.foldl f a = items.foldl g a := by
  induction items generalizing a with
  | nil => rfl
  | cons b items ih =>
    have hsub : g a b :: items ⊆ a :: b :: items := by
      rcases hg a b with hg | hg <;> simp [hg]
    rw [List.foldl_cons, List.foldl_cons, h a (by simp) b (by simp)]
    exact ih fun x hx y hy => h x (hsub hx) y (hsub hy)

variable {cmp : α → α → Ordering} [Std.TransCmp cmp]

theorem isLE_total (a b : α) : ((cmp a b).isLE || (cmp b a).isLE) = true := by
  have hs : cmp b a = (cmp a b).swap := Std.OrientedCmp.eq_swap
  rw [hs]
  cases cmp a b <;> rfl

theorem pairwise_mergeSort (items : List α) :
    (items.mergeSort fun x y => (cmp x y).isLE).Pairwise fun x y => (cmp x y).isLE = true :=
  List.pairwise_mergeSort (fun _ _ _ => Std.TransCmp.isLE_trans) isLE_total items

-- Sorting keeps the order of the elements that it does not tell apart.
theorem filter_mergeSort (items : List α) (a : α) :
    (items.mergeSort fun x y => (cmp x y).isLE).filter (cmp a · == .eq) =
      items.filter (cmp a · == .eq) := by
  have htied : (items.filter (cmp a · == .eq)).Pairwise fun x y => (cmp x y).isLE = true := by
    refine List.pairwise_of_forall_mem_list fun x hx y hy => ?_
    have hx : cmp a x = .eq := by simpa using (List.mem_filter.mp hx).2
    have hy : cmp a y = .eq := by simpa using (List.mem_filter.mp hy).2
    rw [Std.TransCmp.eq_trans (Std.OrientedCmp.eq_symm hx) hy]
    rfl
  have hs := (List.sublist_mergeSort (fun _ _ _ => Std.TransCmp.isLE_trans) isLE_total htied
    List.filter_sublist).filter (cmp a · == .eq)
  rw [List.filter_filter] at hs
  simp only [Bool.and_self] at hs
  exact (hs.eq_of_length ((List.mergeSort_perm items _).filter _).length_eq.symm).symm

-- A list in order, with the elements that are not told apart in the order that they had.
structure StablySorted (cmp : α → α → Ordering) (items sorted : List α) : Prop where
  perm    : sorted.Perm items
  ordered : sorted.Pairwise fun x y => (cmp x y).isLE = true
  stable  : ∀ a ∈ items, sorted.filter (cmp a · == .eq) = items.filter (cmp a · == .eq)

theorem stablySorted_mergeSort (items : List α) :
    StablySorted cmp items (items.mergeSort fun x y => (cmp x y).isLE) where
  perm    := List.mergeSort_perm _ _
  ordered := pairwise_mergeSort items
  stable a _ := filter_mergeSort items a

theorem StablySorted.congr {cmp cmp' : α → α → Ordering} (hs : StablySorted cmp items sorted)
    (h : ∀ a ∈ items, ∀ b ∈ items, cmp a b = cmp' a b) : StablySorted cmp' items sorted where
  perm    := hs.perm
  ordered := hs.ordered.imp_of_mem fun ha hb hab =>
    h _ (hs.perm.mem_iff.mp ha) _ (hs.perm.mem_iff.mp hb) ▸ hab
  stable a ha := by
    have e := hs.stable a ha
    rwa [List.filter_congr fun b hb => by rw [h a ha b (hs.perm.mem_iff.mp hb)],
      List.filter_congr (l := items) fun b hb => by rw [h a ha b hb]] at e

theorem StablySorted.reverse (h : StablySorted cmp items sorted) :
    StablySorted (fun x y => cmp y x) items.reverse sorted.reverse where
  perm    := (List.reverse_perm _).trans (h.perm.trans (List.reverse_perm _).symm)
  ordered := List.pairwise_reverse.mpr h.ordered
  stable a ha := by
    have ht : (fun x => cmp x a == .eq) = (cmp a · == .eq) := by
      funext x
      have hs : cmp x a = (cmp a x).swap := Std.OrientedCmp.eq_swap
      rw [hs]
      cases cmp a x <;> rfl
    rw [List.filter_reverse, List.filter_reverse, ht,
      h.stable a (List.mem_reverse.mp ha)]

-- The first of the least elements comes first.
theorem StablySorted.head? (hs : StablySorted cmp items sorted)
    (hb : Chosen (cmp · · = .gt) items b) : sorted.head? = some b := by
  obtain ⟨front, back, e, hfront, hback⟩ := hb
  have hle : ∀ x ∈ items, (cmp b x).isLE = true := fun x hx => by
    rw [e, List.mem_append, List.mem_cons] at hx
    rcases hx with hx | rfl | hx
    · rw [Std.OrientedCmp.lt_of_gt (hfront x hx)]
      rfl
    · exact Std.ReflCmp.isLE_rfl
    · exact Ordering.isLE_iff_ne_gt.mpr (hback x hx)
  have ht := hs.stable b (by simp [e])
  have hf : front.filter (cmp b · == .eq) = [] := List.filter_eq_nil_iff.mpr fun x hx => by
    simp [Std.OrientedCmp.lt_of_gt (hfront x hx)]
  rw [e, List.filter_append, hf, List.nil_append,
    List.filter_cons_of_pos (by simp [Std.ReflCmp.compare_self])] at ht
  cases sorted with
  | nil => cases ht
  | cons m rest =>
    have hbm : (cmp b m).isLE = true := hle m (hs.perm.mem_iff.mp List.mem_cons_self)
    have hmb : (cmp m b).isLE = true := by
      rcases List.mem_cons.mp (hs.perm.mem_iff.mpr (by simp [e]) : b ∈ m :: rest) with rfl | hb
      · exact Std.ReflCmp.isLE_rfl
      · exact List.rel_of_pairwise_cons hs.ordered hb
    rw [List.filter_cons_of_pos (by simp [Std.OrientedCmp.isLE_antisymm hbm hmb])] at ht
    exact congrArg some (List.cons.inj ht).1

-- The last of the greatest elements comes last.
theorem StablySorted.getLast? (hs : StablySorted cmp items sorted)
    (hb : Chosen (cmp · · ≠ .gt) items b) : sorted.getLast? = some b := by
  obtain ⟨front, back, e, hfront, hback⟩ := hb
  rw [← List.head?_reverse]
  refine hs.reverse.head? ⟨back.reverse, front.reverse, by simp [e], fun x hx => ?_, fun x hx => ?_⟩
  · exact Decidable.not_not.mp (hback x (List.mem_reverse.mp hx))
  · exact hfront x (List.mem_reverse.mp hx)

end

namespace Binary64

-- Negative infinity, the finite numbers, positive infinity and what is not a number.
def rank : Binary64 → Nat
  | .infinite true  => 0
  | .finite _       => 1
  | .infinite false => 2
  | .nan            => 3

def unitsOf : Binary64 → Int
  | .finite x => x.units
  | _         => 0

theorem totalCompare_eq : totalCompare =
    compareLex (compareOn rank) (compareLex (compareOn unitsOf) (compareOn (!·.isNegative))) := by
  funext x y
  rcases x with x | (_ | _) | _ <;> rcases y with y | (_ | _) | _
  case finite.finite =>
    simp [totalCompare, Finite.totalCompare, compareLex, compareOn, rank, unitsOf, isNegative]
  all_goals rfl

instance : Std.TransCmp totalCompare :=
  totalCompare_eq ▸ inferInstance

end Binary64

namespace Collation

variable {items others : List Json} {a b : Json}

-- Keys by which the elements of an array are ordered, whatever else there is.
def numberOf : Json → Binary64
  | .num n => n.approx
  | _      => .nan

def textOf : Json → String
  | .str s => s
  | _      => ""

def truthOf : Json → Bool
  | .bool b => b
  | _       => false

-- An order of all values that is the one of the collation on the elements that it was chosen for.
def total : Collation → Json → Json → Ordering
  | natural => compareLex (fun a b => (numberOf a).totalCompare (numberOf b))
      (compareLex (compareOn textOf) (compareOn truthOf))
  | textual => compareOn Json.display

instance : Std.TransCmp (fun a b => (numberOf a).totalCompare (numberOf b)) where
  eq_swap := Std.OrientedCmp.eq_swap
  isLE_trans := Std.TransCmp.isLE_trans

instance (order : Collation) : Std.TransCmp order.total := by
  cases order <;> (unfold total; infer_instance)

theorem of_eq_natural_iff : of items = natural ↔
    ∃ k ∈ [Kind.number, .string, .boolean], ∀ x ∈ items, x.kind = k := by
  cases items with
  | nil => simp [of]
  | cons v rest =>
    simp only [of, ite_eq_left_iff, reduceCtorEq, imp_false, Decidable.not_not, Bool.and_eq_true,
      List.contains_iff_mem, List.all_eq_true, beq_iff_eq]
    constructor
    case mp => exact fun h => ⟨v.kind, h.1, List.forall_mem_cons.mpr ⟨rfl, h.2⟩⟩
    case mpr =>
      rintro ⟨k, hk, h⟩
      obtain ⟨rfl, h⟩ := List.forall_mem_cons.mp h
      exact ⟨hk, h⟩

-- The order of the elements does not matter for the choice.
theorem of_perm (h : others.Perm items) : of others = of items := by
  have hiff : of others = natural ↔ of items = natural := by
    simp only [of_eq_natural_iff, h.mem_iff]
  cases ho : of others <;> cases hi : of items <;> simp_all

-- Numbers are ordered by their exact values, as long as these are not rounded to the same number. If
-- they are, only the two zeros are told apart.
theorem compare_numbers {m n : Number} (h : ∀ x ∈ items, x.kind = .number)
    (hm : (Json.num m).WellFormed) (hn : (Json.num n).WellFormed) :
    (¬ m.RoundAlike n →
      (of items).compare (.num m) (.num n) = Ord.compare m.units n.units) ∧
    (m.RoundAlike n → (of items).compare (.num m) (.num n) =
      Ord.compare (!m.approx.isNegative) (!n.approx.isNegative)) := by
  have ho : of items = natural := of_eq_natural_iff.mpr ⟨.number, by simp, h⟩
  obtain ⟨x, hx, hmx⟩ := Number.approx_eq_nearest hm
  obtain ⟨y, hy, hny⟩ := Number.approx_eq_nearest hn
  have hcompare : (of items).compare (.num m) (.num n) =
      (Ord.compare x.units y.units).then (Ord.compare (!x.neg) (!y.neg)) := by
    rw [ho, compare, hx, hy]
    rfl
  rw [hcompare]
  constructor
  case left =>
    intro hne
    have hunits := Number.compare?_approx hm hn hne
    rw [hx, hy, Binary64.compare?, Option.some_inj] at hunits
    rw [hunits]
    cases e : Ord.compare m.units n.units with
    | lt => rfl
    | gt => rfl
    | eq => exact absurd (.of_units hm (Std.LawfulEqOrd.eq_of_compare e)) hne
  case right =>
    rintro ⟨z, hmz, hnz⟩
    have hunits : x.units = y.units := (hmx.units_eq hmz).trans (hnz.units_eq hny)
    rw [hunits, Std.ReflOrd.compare_self, hx, hy]
    rfl

-- Strings are ordered by code points.
theorem compare_strings {s t : String} (h : ∀ x ∈ items, x.kind = .string) :
    (of items).compare (.str s) (.str t) = Ord.compare s t := by
  rw [of_eq_natural_iff.mpr ⟨.string, by simp, h⟩]
  rfl

-- Elements of several kinds, or of a kind without an order, are ordered by their texts.
theorem compare_mixed (h : ∀ k ∈ [Kind.number, .string, .boolean], ∃ x ∈ items, x.kind ≠ k)
    (a b : Json) : (of items).compare a b = Ord.compare a.display b.display := by
  have ho : of items = textual := by
    cases ho : of items with
    | textual => rfl
    | natural =>
      obtain ⟨k, hk, hall⟩ := of_eq_natural_iff.mp ho
      obtain ⟨x, hx, hne⟩ := h k hk
      exact absurd (hall x hx) hne
  rw [ho]
  rfl

theorem compare_eq_total (ha : a ∈ items) (hb : b ∈ items) :
    (of items).compare a b = (of items).total a b := by
  cases ho : of items with
  | textual => rfl
  | natural =>
    obtain ⟨k, hk, h⟩ := of_eq_natural_iff.mp ho
    have ha := h a ha
    have hb := h b hb
    rw [← ha] at hb hk
    have hn : Binary64.nan.totalCompare .nan = .eq := rfl
    cases a <;>
      simp only [Json.kind, List.mem_cons, reduceCtorEq, List.not_mem_nil, or_self] at hk <;>
      cases b <;> cases hb <;>
      simp [compare, total, compareLex, compareOn, numberOf, textOf, truthOf, Json.compare?, hn]

theorem compare_bne_gt (ha : a ∈ items) (hb : b ∈ items) :
    ((of items).compare a b != .gt) = ((of items).total a b).isLE := by
  rw [compare_eq_total ha hb, Ordering.isLE_eq_not_beq_gt]
  rfl

end Collation

namespace Json

theorem stablySorted_sort (items : List Json) : ∃ sorted, (arr items).sort = arr sorted ∧
    StablySorted (Collation.of items).total items sorted := by
  refine ⟨_, rfl, ?_⟩
  have e : (items.mergeSort fun a b => (Collation.of items).compare a b != .gt) =
      items.mergeSort fun a b => ((Collation.of items).total a b).isLE := by
    have h := List.map_mergeSort (f := id) (l := items)
      (r := fun a b => (Collation.of items).compare a b != .gt)
      (s := fun a b => ((Collation.of items).total a b).isLE)
      fun a ha b hb => Collation.compare_bne_gt ha hb
    simpa using h
  exact e ▸ stablySorted_mergeSort items

theorem chosen_min (v : Json) (rest : List Json) :
    Chosen ((Collation.of (v :: rest)).total · · = .gt) (v :: rest) (arr (v :: rest)).min := by
  have e : (arr (v :: rest)).min =
      rest.foldl (fun b x => if (Collation.of (v :: rest)).total b x = .gt then x else b) v :=
    foldl_congr_of_mem (fun a b => by split <;> simp) fun a ha b hb => by
      rw [Collation.compare_eq_total ha hb]
  rw [e]
  exact chosen_foldl Std.TransCmp.gt_trans
    (fun hac hab => Std.TransCmp.gt_of_isGE_of_gt
      (Ordering.isGE_iff_ne_lt.mpr fun h => hab (Std.OrientedCmp.gt_of_lt h)) hac) v rest

theorem chosen_max (v : Json) (rest : List Json) :
    Chosen ((Collation.of (v :: rest)).total · · ≠ .gt) (v :: rest) (arr (v :: rest)).max := by
  have e : (arr (v :: rest)).max =
      rest.foldl (fun b x => if (Collation.of (v :: rest)).total b x ≠ .gt then x else b) v :=
    foldl_congr_of_mem (fun a b => by split <;> simp) fun a ha b hb => by
      rw [Collation.compare_eq_total ha hb, ite_not]
  rw [e]
  refine chosen_foldl (fun hab hbc => ?_) (fun hac hab => ?_) v rest
  case refine_1 =>
    exact Ordering.isLE_iff_ne_gt.mp (Std.TransCmp.isLE_trans
      (Ordering.isLE_iff_ne_gt.mpr hab) (Ordering.isLE_iff_ne_gt.mpr hbc))
  case refine_2 =>
    have hba := Std.OrientedCmp.lt_of_gt (Decidable.not_not.mp hab)
    rw [Std.TransCmp.lt_of_lt_of_isLE hba (Ordering.isLE_iff_ne_gt.mpr hac)]
    exact nofun

-- The collation of an array is a total preorder of its elements, and the functions that go by it
-- agree on what comes first and last, also among elements that it does not tell apart.
theorem sort_min_max (items : List Json) :
    Std.TransCmp (fun a b : {x // x ∈ items} => (Collation.of items).compare a b) ∧
    ∃ sorted,
      (arr items).sort = arr sorted ∧
      StablySorted (Collation.of items).compare items sorted ∧
      (arr sorted).sort = arr sorted ∧
      (∀ others, others.Perm items → Collation.of others = Collation.of items) ∧
      (arr items).min = sorted.head?.getD null ∧
      (arr items).max = sorted.getLast?.getD null := by
  obtain ⟨sorted, hsort, hs⟩ := stablySorted_sort items
  refine ⟨?order, sorted, hsort, ?stable, ?again, fun _ => Collation.of_perm, ?min, ?max⟩
  case order =>
    have e (a b : {x // x ∈ items}) :
        (Collation.of items).compare a b = (Collation.of items).total a b :=
      Collation.compare_eq_total a.2 b.2
    simp only [e]
    exact { eq_swap := Std.OrientedCmp.eq_swap, isLE_trans := Std.TransCmp.isLE_trans }
  case stable => exact hs.congr fun a ha b hb => (Collation.compare_eq_total ha hb).symm
  case again =>
    have hsorted : sorted.mergeSort (fun a b => (Collation.of sorted).compare a b != .gt) =
        sorted := by
      refine List.mergeSort_of_pairwise (hs.ordered.imp_of_mem fun {a b} ha hb hab => ?_)
      rwa [Collation.of_perm hs.perm,
        Collation.compare_bne_gt (hs.perm.mem_iff.mp ha) (hs.perm.mem_iff.mp hb)]
    exact congrArg arr hsorted
  case min =>
    cases items with
    | nil => rw [hs.perm.eq_nil]; rfl
    | cons v rest => rw [hs.head? (chosen_min v rest)]; rfl
  case max =>
    cases items with
    | nil => rw [hs.perm.eq_nil]; rfl
    | cons v rest => rw [hs.getLast? (chosen_max v rest)]; rfl

-- An integer and a float of the same value.
example :
    let one : Json :=
      num (.float ⟨false, 0x10000000000000, 1022, by decide, by decide, .inr (by decide)⟩)
    (arr [one, int 1, int 2]).min = one ∧ (arr [int 0, one, int 1]).max = int 1 := by
  decide +kernel

end Json

end JsonQuery
