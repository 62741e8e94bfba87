import Mathlib.Algebra.BigOperators.Group.List.Basic
import JsonQuery.Builtin.Sum
import JsonQuery.Proofs.Decimals
import JsonQuery.Proofs.SliceBounds

namespace JsonQuery

namespace Binary64

variable {x y z : Finite} {n : Int}

theorem magnitude_eq (x : Finite) : x.magnitude = x.mant * 2 ^ x.exp := by
  rw [Finite.magnitude, Nat.shiftLeft_eq]

theorem log2_mul_two_pow {m : Nat} (hm : m ≠ 0) (k : Nat) : (m * 2 ^ k).log2 = m.log2 + k := by
  have hp := Nat.two_pow_pos k
  rw [Nat.log2_eq_iff (Nat.mul_ne_zero hm (Nat.ne_of_gt hp)), Nat.pow_add, Nat.add_right_comm,
    Nat.pow_add]
  exact ⟨Nat.mul_le_mul_right _ (Nat.log2_self_le hm),
    Nat.mul_lt_mul_of_pos_right Nat.lt_log2_self hp⟩

theorem exponentOf_magnitude (x : Finite) : exponentOf x.magnitude = x.exp := by
  rw [exponentOf, magnitude_eq]
  by_cases hz : x.mant = 0
  case pos =>
    have he : x.exp = 0 := x.canonical.resolve_right (by omega)
    simp [hz, he]
  case neg =>
    have hl : x.mant.log2 < 53 := (Nat.log2_lt hz).mpr x.mant_lt
    rw [log2_mul_two_pow hz]
    rcases x.canonical with he | hm
    case inl => omega
    case inr =>
      have hm : 52 ≤ x.mant.log2 := (Nat.le_log2 hz).mpr hm
      omega

theorem roundHalfEven_mul (n : Nat) {d : Nat} (h : 0 < d) : roundHalfEven (n * d) d = n := by
  simp [roundHalfEven, Nat.mul_div_cancel n h, h]

-- What needs no rounding is not changed by it.
theorem round_magnitude (x : Finite) : round x.neg x.magnitude 1 = .finite x := by
  have hm : roundHalfEven x.magnitude (1 <<< x.exp) = x.mant := by
    rw [Nat.shiftLeft_eq, Nat.one_mul, magnitude_eq]
    exact roundHalfEven_mul x.mant (Nat.two_pow_pos _)
  simp [round, make, exponentOf_magnitude, hm, x.mant_lt, x.exp_le]

theorem round_of_units (hz : z.units = n) (hn : n ≠ 0) :
    round (n < 0) n.natAbs 1 = .finite z := by
  have hs : z.neg = decide (n < 0) := by
    rw [← hz, Finite.units]
    rw [← hz, Finite.units] at hn
    cases hneg : z.neg <;> simp only [hneg] at hn ⊢ <;> simp
    omega
  rw [← hs, ← hz, ← Finite.magnitude_eq_natAbs]
  exact round_magnitude z

-- A sum that is a binary64 number is the result of an addition.
theorem add_of_units (hz : z.units = x.units + y.units) :
    ∃ w, add (.finite x) (.finite y) = .finite w ∧ w.units = x.units + y.units := by
  by_cases h : x.units + y.units = 0
  case pos => exact ⟨.zero (x.neg && y.neg), by simp [add, h], by rw [Finite.units_zero, h]⟩
  case neg => exact ⟨z, by simp only [add, h, if_false, round_of_units hz h], hz⟩

-- Whether an integer is a binary64 number.
def Exact (n : Int) : Prop := ∃ x : Finite, x.units = n * Finite.one

theorem ofInt_of_exact (h : Exact n) : ∃ x, ofInt n = .finite x ∧ x.units = n * Finite.one := by
  obtain ⟨z, hz⟩ := h
  by_cases hn : n = 0
  case pos =>
    subst hn
    refine ⟨.zero false, ?_, by simp [Finite.units_zero]⟩
    simpa [ofInt, Finite.zero, Finite.magnitude] using round_magnitude (.zero false)
  case neg =>
    have ho : (0 : Int) < Finite.one := Int.natCast_pos.mpr Finite.one_pos
    have hne : n * Finite.one ≠ 0 := Int.mul_ne_zero hn (Int.ne_of_gt ho)
    have hneg : n * Finite.one < 0 ↔ n < 0 :=
      ⟨fun h => Int.not_le.mp fun hn => Int.not_le.mpr h (Int.mul_nonneg hn (Int.le_of_lt ho)),
        fun h => Int.mul_neg_of_neg_of_pos h ho⟩
    have hr := round_of_units hz hne
    simp only [hneg, Int.natAbs_mul, Int.natAbs_natCast] at hr
    exact ⟨z, hr, hz⟩

theorem exists_finite (neg : Bool) {m k : Nat} (hm : m < 2 ^ 53) (hk : k ≤ 2045) :
    ∃ x : Finite, x.neg = neg ∧ x.magnitude = m * 2 ^ k := by
  by_cases hz : m = 0
  case pos => exact ⟨.zero neg, rfl, by simp [hz, Finite.zero, Finite.magnitude]⟩
  case neg =>
    -- The digits are moved to the left as far as there is room.
    obtain ⟨s, hs⟩ : ∃ s, s = min (52 - m.log2) k := ⟨_, rfl⟩
    have hl : m.log2 < 53 := (Nat.log2_lt hz).mpr hm
    have hlt : m * 2 ^ s < 2 ^ 53 := calc
      m * 2 ^ s < 2 ^ (m.log2 + 1) * 2 ^ s :=
        Nat.mul_lt_mul_of_pos_right Nat.lt_log2_self (Nat.two_pow_pos s)
      _ = 2 ^ (m.log2 + 1 + s) := (Nat.pow_add ..).symm
      _ ≤ 2 ^ 53 := Nat.pow_le_pow_right (by decide) (by omega)
    have hc : k - s = 0 ∨ 2 ^ 52 ≤ m * 2 ^ s := by
      by_cases hk' : k ≤ 52 - m.log2
      case pos => exact .inl (by omega)
      case neg =>
        refine .inr ?_
        calc
          2 ^ 52 = 2 ^ (m.log2 + s) := congrArg _ (by omega)
          _ = 2 ^ m.log2 * 2 ^ s := Nat.pow_add ..
          _ ≤ m * 2 ^ s := Nat.mul_le_mul_right _ (Nat.log2_self_le hz)
    refine ⟨⟨neg, m * 2 ^ s, k - s, hlt, by omega, hc⟩, rfl, ?_⟩
    have hsk : s + (k - s) = k := by omega
    rw [magnitude_eq, Nat.mul_assoc, ← Nat.pow_add, hsk]

-- Integers of up to 53 binary digits with zeros behind them are binary64 numbers.
theorem exact_of_natAbs {m k : Nat} (hm : m < 2 ^ 53) (hk : k ≤ 971) (h : n.natAbs = m * 2 ^ k) :
    Exact n := by
  obtain ⟨x, hs, hx⟩ := exists_finite (n < 0) hm (k := k + 1074) (by omega)
  have hshift (e : Nat) : m * 2 ^ (k + e) = m * 2 ^ k * 1 <<< e := by
    rw [Nat.shiftLeft_eq, Nat.one_mul, Nat.pow_add, Nat.mul_assoc]
  have hx : x.magnitude = n.natAbs * Finite.one := by
    rw [hx, h, hshift, Finite.one]
  refine ⟨x, ?_⟩
  rw [Finite.units, hs, hx, Int.natCast_mul]
  by_cases hn : n < 0
  case pos => simp [hn, abs_of_neg hn]
  case neg => simp [hn, abs_of_nonneg (Int.not_lt.mp hn)]

end Binary64

section

variable {sum n t : Int} {ns ms : List Int}

-- The sums after each of the terms.
def partialSums (sum : Int) : List Int → List Int
  | []        => []
  | n :: rest => (sum + n) :: partialSums (sum + n) rest

-- Whether all terms and all sums on the way are numbers of a kind.
structure Throughout (p : Int → Prop) (sum : Int) (ns : List Int) : Prop where
  terms : ∀ n ∈ ns, p n
  sums  : ∀ t ∈ partialSums sum ns, p t

theorem throughout_cons {p : Int → Prop} :
    Throughout p sum (n :: ns) ↔ (p n ∧ p (sum + n)) ∧ Throughout p (sum + n) ns := by
  constructor
  case mp =>
    rintro ⟨ht, hs⟩
    rw [partialSums] at hs
    obtain ⟨hn, ht⟩ := List.forall_mem_cons.mp ht
    obtain ⟨hsum, hs⟩ := List.forall_mem_cons.mp hs
    exact ⟨⟨hn, hsum⟩, ht, hs⟩
  case mpr =>
    rintro ⟨⟨hn, hsum⟩, ht, hs⟩
    exact ⟨List.forall_mem_cons.mpr ⟨hn, ht⟩, List.forall_mem_cons.mpr ⟨hsum, hs⟩⟩

-- What the positive terms make of a sum, and what the negative ones do.
def gains (ns : List Int) : Int := (ns.map (max · 0)).sum

def losses (ns : List Int) : Int := (ns.map (min · 0)).sum

theorem gains_cons (n : Int) (ns : List Int) : gains (n :: ns) = max n 0 + gains ns :=
  List.sum_cons

theorem losses_cons (n : Int) (ns : List Int) : losses (n :: ns) = min n 0 + losses ns :=
  List.sum_cons

theorem gains_perm (h : ms.Perm ns) : gains ms = gains ns := (h.map _).sum_eq

theorem losses_perm (h : ms.Perm ns) : losses ms = losses ns := (h.map _).sum_eq

theorem gains_nonneg (ns : List Int) : 0 ≤ gains ns := by
  induction ns with
  | nil => exact Int.le_refl 0
  | cons n ns ih =>
    rw [gains_cons]
    omega

theorem losses_nonpos (ns : List Int) : losses ns ≤ 0 := by
  induction ns with
  | nil => exact Int.le_refl 0
  | cons n ns ih =>
    rw [losses_cons]
    omega

-- All sums on the way lie between those of the losses alone and of the gains alone.
theorem throughout_of_gains {p : Int → Prop} (h : ∀ t, losses ns ≤ t → t ≤ gains ns → p t)
    (h' : ∀ t, sum + losses ns ≤ t → t ≤ sum + gains ns → p t) : Throughout p sum ns := by
  induction ns generalizing sum with
  | nil => exact ⟨nofun, nofun⟩
  | cons n ns ih =>
    have hg := gains_nonneg ns
    have hl := losses_nonpos ns
    rw [gains_cons, losses_cons] at h h'
    refine throughout_cons.mpr ⟨⟨h n (by omega) (by omega), h' _ (by omega) (by omega)⟩, ih ?_ ?_⟩
    · exact fun t hlt htg => h t (by omega) (by omega)
    · exact fun t hlt htg => h' t (by omega) (by omega)

theorem isWord_of_between {a b : Int} (ha : isWord a = true) (hb : isWord b = true) (hl : a ≤ n)
    (hu : n ≤ b) : isWord n = true := by
  have ha := Slice.isWord_iff.mp ha
  have hb := Slice.isWord_iff.mp hb
  exact Slice.isWord_iff.mpr (by omega)

end

namespace Json

open Binary64

variable {sum n t : Int} {ns ms : List Int}

theorem integerSum?_cons (sum n : Int) (rest : List Number) :
    integerSum? sum (.int n :: rest) =
      if isWord n = true ∧ isWord (sum + n) = true then integerSum? (sum + n) rest else none := by
  simp only [integerSum?, Number.toInt64?, Slice.isWord_iff]
  split_ifs <;> simp_all

-- The sum of integers is exact, and there is one if 64 bits are enough throughout.
theorem integerSum?_of_throughout (h : Throughout (isWord · = true) sum ns) :
    integerSum? sum (ns.map .int) = some (sum + ns.sum) := by
  induction ns generalizing sum with
  | nil => simp [integerSum?]
  | cons n ns ih =>
    obtain ⟨hn, h⟩ := throughout_cons.mp h
    rw [List.map_cons, integerSum?_cons, if_pos hn, ih h, List.sum_cons, Int.add_assoc]

theorem throughout_of_integerSum? (h : integerSum? sum (ns.map .int) = some t) :
    Throughout (isWord · = true) sum ns := by
  induction ns generalizing sum with
  | nil => exact ⟨nofun, nofun⟩
  | cons n ns ih =>
    rw [List.map_cons, integerSum?_cons] at h
    split at h
    case isTrue hn => exact throughout_cons.mpr ⟨hn, ih h⟩
    case isFalse => cases h

-- A sum of binary64 numbers that are integers throughout is exact, too.
theorem exists_floatSum {x : Finite} (hx : x.units = sum * Finite.one)
    (h : Throughout Exact sum ns) :
    ∃ y : Finite, (ns.map Number.int).foldl (fun sum n => sum.add n.approx) (Binary64.finite x) =
      .finite y ∧ y.units = (sum + ns.sum) * Finite.one := by
  induction ns generalizing sum x with
  | nil => exact ⟨x, rfl, by simpa using hx⟩
  | cons n ns ih =>
    obtain ⟨⟨hn, z, hz⟩, h⟩ := throughout_cons.mp h
    obtain ⟨y, hy, hu⟩ := ofInt_of_exact hn
    have hsum : x.units + y.units = (sum + n) * Finite.one := by rw [hx, hu, Int.add_mul]
    obtain ⟨w, hw, hu⟩ := add_of_units (hz.trans hsum.symm)
    obtain ⟨v, hv, hu⟩ := ih (hu.trans hsum) h
    refine ⟨v, ?_, by rw [hu, List.sum_cons, Int.add_assoc]⟩
    rw [List.map_cons, List.foldl_cons, Number.approx, hy, hw, hv]

theorem toInt?_of_units {x : Finite} (h : x.units = n * Finite.one) : x.toInt? = some n := by
  have hm : x.magnitude = n.natAbs * Finite.one := by
    rw [Finite.magnitude_eq_natAbs, h, Int.natAbs_mul, Int.natAbs_natCast]
  have ho : (0 : Int) < Finite.one := Int.natCast_pos.mpr Finite.one_pos
  have hs : (if x.neg then -(n.natAbs : Int) else n.natAbs) = n := by
    refine Int.eq_of_mul_eq_mul_right (Int.ne_of_gt ho) ?_
    rw [← h, Finite.units, hm, Int.natCast_mul]
    split <;> simp
  rw [Finite.toInt?, hm, Nat.mul_mod_left, if_pos rfl, Nat.mul_div_cancel _ Finite.one_pos, hs]

theorem ofBinary64_of_units {x : Finite} (h : x.units = n * Finite.one) (hn : isWord n = true) :
    ofBinary64 (.finite x) = int n := by
  have hn := Slice.isWord_iff.mp hn
  have hr : -0x8000000000000000 ≤ n ∧ n ≤ 0x8000000000000000 := by omega
  have hle : n ≤ 0x7FFFFFFFFFFFFFFF := by omega
  simp [ofBinary64, Number.ofBinary64?, toInt?_of_units h, hr, Int.min_eq_left hle, int]

theorem sumOf_of_throughout (h : Throughout (isWord · = true) 0 ns) :
    sumOf (ns.map .int) = int ns.sum := by
  rw [sumOf, integerSum?_of_throughout h, Int.zero_add]

theorem sumOf_of_not_throughout (h : ¬ Throughout (isWord · = true) 0 ns) :
    sumOf (ns.map .int) = ofBinary64 (floatSum (ns.map .int)) := by
  rw [sumOf]
  cases hs : integerSum? 0 (ns.map .int) with
  | none   => rfl
  | some t => exact absurd (throughout_of_integerSum? hs) h

theorem sumOf_of_exact (h : Throughout Exact 0 ns) (hn : isWord ns.sum = true) :
    sumOf (ns.map .int) = int ns.sum := by
  by_cases hw : Throughout (isWord · = true) 0 ns
  case pos => exact sumOf_of_throughout hw
  case neg =>
    have hz : (Finite.zero false).units = 0 * Finite.one := by simp [Finite.units_zero]
    obtain ⟨y, hy, hu⟩ := exists_floatSum hz h
    rw [Int.zero_add] at hu
    rw [sumOf_of_not_throughout hw, floatSum, Binary64.zero, hy, ofBinary64_of_units hu hn]

theorem add_ints (hn : ns ≠ []) : (arr (ns.map int)).add = sumOf (ns.map .int) := by
  obtain ⟨n, ns, rfl⟩ := List.exists_cons_of_ne_nil hn
  have hk : (ns.map int).all (·.kind == (int n).kind) = true := by simp [int, kind]
  have hf : ((n :: ns).map int).filterMap toNumber? = (n :: ns).map .int := by
    simp [List.filterMap_map, Function.comp_def, int, toNumber?]
  rw [List.map_cons] at hf ⊢
  simp only [add, hk, if_true]
  exact congrArg sumOf hf

-- Integers are summed up exactly, in whatever order, as long as all terms and all sums on the way
-- are signed 64 bit integers or all of them are binary64 numbers. They are in every order if the
-- positive terms and the negative ones have signed 64 bit sums.
theorem add_integers (hn : ns ≠ []) (hs : isWord ns.sum = true) (hp : ms.Perm ns) :
    (Throughout (isWord · = true) 0 ms ∨ Throughout Exact 0 ms →
      (arr (ms.map int)).add = int ns.sum) ∧
    (isWord (gains ns) = true → isWord (losses ns) = true →
      (arr (ms.map int)).add = int ns.sum) ∧
    (¬ Throughout (isWord · = true) 0 ms →
      (arr (ms.map int)).add = ofBinary64 (floatSum (ms.map .int))) := by
  have hm : ms ≠ [] := fun e => hn (List.perm_nil.mp (e ▸ hp.symm))
  have hsum : ms.sum = ns.sum := hp.sum_eq
  rw [add_ints hm]
  refine ⟨fun h => ?exact, fun hg hl => ?orders, sumOf_of_not_throughout⟩
  case exact =>
    rcases h with h | h
    · rw [sumOf_of_throughout h, hsum]
    · rw [sumOf_of_exact h (hsum ▸ hs), hsum]
  case orders =>
    have hbetween (t : Int) (hlt : losses ms ≤ t) (htg : t ≤ gains ms) : isWord t = true :=
      isWord_of_between (losses_perm hp ▸ hl) (gains_perm hp ▸ hg) hlt htg
    have h : Throughout (isWord · = true) 0 ms :=
      throughout_of_gains hbetween fun t hlt htg => hbetween t (by omega) (by omega)
    rw [sumOf_of_throughout h, hsum]

-- Sums on the way may leave the range of 64 bits, and a term may.
theorem add_integers_unsigned :
    (arr ([18446744073709549568, -9223372036854775808, -9223372036854775808, 7].map int)).add =
        int (-2041) ∧
      ∀ ms : List Int, ms.Perm [9223372036854775800, -5, 4] →
        (arr (ms.map int)).add = int 9223372036854775799 := by
  have hlarge : Exact 18446744073709549568 :=
    exact_of_natAbs (m := 9007199254740991) (k := 11) (by decide) (by decide) (by decide)
  have hleast : Exact (-9223372036854775808) :=
    exact_of_natAbs (m := 1) (k := 63) (by decide) (by decide) (by decide)
  have hhalf : Exact 9223372036854773760 :=
    exact_of_natAbs (m := 4503599627370495) (k := 11) (by decide) (by decide) (by decide)
  have hsmall {n : Int} (h : n.natAbs < 2 ^ 53) : Exact n :=
    exact_of_natAbs (k := 0) h (by decide) (Nat.mul_one _).symm
  have h : Throughout Exact 0
      [18446744073709549568, -9223372036854775808, -9223372036854775808, 7] :=
    throughout_cons.mpr ⟨⟨hlarge, hlarge⟩, throughout_cons.mpr ⟨⟨hleast, hhalf⟩,
      throughout_cons.mpr ⟨⟨hleast, hsmall (by decide)⟩,
        throughout_cons.mpr ⟨⟨hsmall (by decide), hsmall (by decide)⟩, ⟨nofun, nofun⟩⟩⟩⟩⟩
  refine ⟨(add_integers (by decide) (by decide) (.refl _)).1 (.inr h), fun ms hp => ?_⟩
  exact (add_integers (by decide) (by decide) hp).2.1 (by decide) (by decide)

-- Where the sums on the way do not fit, the order of the terms matters, and the sum is rounded.
theorem add_integers_rounded : ¬ ∀ ns : List Int, ns ≠ [] →
    (∀ n ∈ ns, -0x8000000000000000 ≤ n ∧ n < 0x10000000000000000) → isWord ns.sum = true →
      (arr (ns.map int)).add = int ns.sum := by
  intro h
  have hr := h [9223372036854775807, 1, -9223372036854775807] (by decide) (by decide) (by decide)
  exact absurd hr (by decide +kernel)

example : (arr ([9223372036854775807, 1, -9223372036854775807].map int)).add = int 0 := by
  decide +kernel

end Json

end JsonQuery
