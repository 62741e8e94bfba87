import JsonQuery.Proofs.Summing

namespace JsonQuery

-- No multiple of `d` is nearer to `n` than that by the rounded quotient.
theorem roundHalfEven_closest {d : Nat} (n : Nat) (hd : 0 < d) (k : Nat) :
    ((roundHalfEven n d * d : Nat) - n : Int).natAbs ≤ ((k * d : Nat) - n : Int).natAbs ∧
    (((k * d : Nat) - n : Int).natAbs = ((roundHalfEven n d * d : Nat) - n : Int).natAbs →
      k = roundHalfEven n d ∨ roundHalfEven n d % 2 = 0) := by
  obtain ⟨q, hq⟩ : ∃ q, q = n / d := ⟨_, rfl⟩
  obtain ⟨r, hr⟩ : ∃ r, r = n % d := ⟨_, rfl⟩
  have hn : q * d + r = n := by rw [hq, hr, Nat.mul_comm, Nat.div_add_mod]
  have hlt : r < d := hr ▸ Nat.mod_lt n hd
  have hs : (q + 1) * d = q * d + d := Nat.succ_mul q d
  -- All multiples but two are at least `d` away from `n`.
  have hk : k * d + d ≤ q * d ∨ k = q ∨ k = q + 1 ∨ (q + 1) * d + d ≤ k * d := by
    rcases Nat.lt_trichotomy k q with h | h | h
    · exact .inl (Nat.succ_mul k d ▸ Nat.mul_le_mul_right d h)
    · exact .inr (.inl h)
    · rcases Nat.eq_or_lt_of_le h with h | h
      · exact .inr (.inr (.inl h.symm))
      · exact .inr (.inr (.inr (Nat.succ_mul (q + 1) d ▸ Nat.mul_le_mul_right d h)))
  simp only [roundHalfEven, ← hq, ← hr]
  clear hq hr
  split <;> rcases hk with hk | rfl | rfl | hk <;> omega

namespace Finite

variable {x y z : Finite} {u v : Int}

def distance (x : Finite) (u : Int) : Nat := (x.units - u).natAbs

-- Rounding to nearest: no number is nearer to the exact value, and if another one is as near, the
-- significand is even.
structure Nearest (u : Int) (x : Finite) : Prop where
  closest : ∀ y : Finite, x.distance u ≤ y.distance u
  even    : ∀ y : Finite, y.distance u = x.distance u → y.units = x.units ∨ x.mant % 2 = 0

-- Every number is a multiple of `2 ^ e`, or it is below those with 53 digits down to that place.
theorem magnitude_multiple (y : Finite) (e : Nat) :
    (∃ k, y.magnitude = k * 2 ^ e) ∨ (e ≠ 0 ∧ y.magnitude < 2 ^ 52 * 2 ^ e) := by
  rw [Binary64.magnitude_eq]
  by_cases h : e ≤ y.exp
  case pos =>
    refine .inl ⟨y.mant * 2 ^ (y.exp - e), ?_⟩
    rw [Nat.mul_assoc, ← Nat.pow_add, Nat.sub_add_cancel h]
  case neg =>
    refine .inr ⟨by omega, ?_⟩
    calc
      y.mant * 2 ^ y.exp < 2 ^ 53 * 2 ^ y.exp :=
        Nat.mul_lt_mul_of_pos_right y.mant_lt (Nat.two_pow_pos _)
      _ = 2 ^ 52 * 2 ^ (y.exp + 1) := by rw [← Nat.pow_add, ← Nat.pow_add]; congr 1; omega
      _ ≤ 2 ^ 52 * 2 ^ e := Nat.mul_le_mul_left _ (Nat.pow_le_pow_right (by decide) (by omega))

theorem add_ulp_le (h : x.magnitude < y.magnitude) : x.magnitude + 2 ^ x.exp ≤ y.magnitude := by
  rcases magnitude_multiple y x.exp with ⟨k, hk⟩ | ⟨he, hlt⟩
  case inl =>
    rw [hk, Binary64.magnitude_eq] at h ⊢
    rw [← Nat.succ_mul]
    exact Nat.mul_le_mul_right _ (Nat.lt_of_mul_lt_mul_right h)
  case inr =>
    have hm : 2 ^ 52 * 2 ^ x.exp ≤ x.mant * 2 ^ x.exp :=
      Nat.mul_le_mul_right _ (x.canonical.resolve_left he)
    rw [← Binary64.magnitude_eq] at hm
    omega

theorem mant_eq_of_magnitude (h : x.magnitude = y.magnitude) : x.mant = y.mant := by
  have he : x.exp = y.exp := by
    rw [← Binary64.exponentOf_magnitude, h, Binary64.exponentOf_magnitude]
  rw [Binary64.magnitude_eq, Binary64.magnitude_eq, he] at h
  exact Nat.eq_of_mul_eq_mul_right (Nat.two_pow_pos _) h

theorem mant_eq_of_units (h : x.units = y.units) : x.mant = y.mant :=
  mant_eq_of_magnitude (by rw [magnitude_eq_natAbs, h, magnitude_eq_natAbs])

theorem units_eq_or (x : Finite) : x.units = x.magnitude ∨ x.units = -(x.magnitude : Int) := by
  rw [units]
  split <;> simp

theorem negate_negate (x : Finite) : x.negate.negate = x := by
  simp [negate]

theorem distance_negate (x : Finite) (u : Int) : x.negate.distance (-u) = x.distance u := by
  rw [distance, distance, units_negate]
  omega

theorem Nearest.negate (h : Nearest u x) : Nearest (-u) x.negate where
  closest y := by
    rw [distance_negate, ← negate_negate y, distance_negate]
    exact h.closest y.negate
  even y hy := by
    rw [distance_negate, ← negate_negate y, distance_negate] at hy
    refine (h.even y.negate hy).imp_left fun e => ?_
    rw [units_negate] at e ⊢
    omega

theorem Nearest.congr (h : Nearest u x) (e : x.units = y.units) : Nearest u y where
  closest z := by
    rw [distance, ← e]
    exact h.closest z
  even z hz := by
    rw [distance, distance, ← e] at hz
    rw [← e, ← mant_eq_of_units e]
    exact h.even z hz

theorem nearest_self (x : Finite) : Nearest x.units x where
  closest y := by simp [distance]
  even y hy := .inl (by simp only [distance] at hy; omega)

theorem units_eq_magnitude (h : 0 ≤ x.units) : x.units = x.magnitude := by
  have := units_eq_or x
  omega

-- The number above one with an even significand has an odd one.
theorem exists_next (h : 0 ≤ x.units) (he : x.mant % 2 = 0) :
    ∃ z : Finite, z.units = x.units + 2 ^ x.exp ∧ z.mant = x.mant + 1 := by
  let z : Finite := {
    neg       := false
    mant      := x.mant + 1
    exp       := x.exp
    mant_lt   := by have := x.mant_lt; omega
    exp_le    := x.exp_le
    canonical := x.canonical.imp_right (Nat.le_succ_of_le ·)
  }
  refine ⟨z, ?_, rfl⟩
  have hz : z.units = z.magnitude := rfl
  rw [hz, units_eq_magnitude h, Binary64.magnitude_eq, Binary64.magnitude_eq, Nat.succ_mul]
  simp [z]

-- Of two neighbours one has an odd significand, so they are not both nearest to the same value.
theorem Nearest.not_lt_of_nonneg (hx : Nearest u x) (hy : Nearest u y) (h : 0 ≤ x.units) :
    ¬ x.units < y.units := by
  intro hlt
  have hd := Nat.le_antisymm (hx.closest y) (hy.closest x)
  have hex : x.mant % 2 = 0 := (hx.even y hd.symm).resolve_left (by omega)
  have hey : y.mant % 2 = 0 := (hy.even x hd).resolve_left (by omega)
  have hmx := units_eq_magnitude h
  have hmy : y.units = y.magnitude := units_eq_magnitude (by omega)
  have hgap : x.magnitude + 2 ^ x.exp ≤ y.magnitude := add_ulp_le (by omega)
  obtain ⟨z, hz, hm⟩ := exists_next h hex
  have hp : (0 : Int) < 2 ^ x.exp := Int.pow_pos (by decide)
  have hgap : x.units + 2 ^ x.exp ≤ y.units := by
    rw [hmx, hmy]
    exact_mod_cast hgap
  rcases Int.lt_or_eq_of_le hgap with hl | he
  case inl =>
    have hc := hx.closest z
    simp only [distance] at hc hd
    omega
  case inr =>
    have hzy := mant_eq_of_units (hz.trans he)
    omega

theorem Nearest.not_lt (hx : Nearest u x) (hy : Nearest u y) : ¬ x.units < y.units := by
  intro h
  by_cases hp : 0 ≤ x.units
  case pos => exact hx.not_lt_of_nonneg hy hp h
  by_cases hn : y.units ≤ 0
  case pos =>
    refine hy.negate.not_lt_of_nonneg hx.negate ?_ ?_ <;> simp only [units_negate] <;> omega
  case neg =>
    have hd := Nat.le_antisymm (hx.closest y) (hy.closest x)
    have hc := hx.closest (zero false)
    simp only [distance, units_zero] at hd hc
    omega

-- Only zero is nearest in two representations.
theorem Nearest.units_eq (hx : Nearest u x) (hy : Nearest u y) : x.units = y.units := by
  have hlt := hx.not_lt hy
  have hgt := hy.not_lt hx
  omega

-- Both can only be turned around by a value that is as near to one as to the other.
theorem Nearest.monotone (hx : Nearest u x) (hy : Nearest v y) (h : u ≤ v) :
    x.units ≤ y.units := by
  refine Int.not_lt.mp fun hlt => ?_
  have hc := hx.closest y
  have hd := hy.closest x
  have huv : u = v := by
    simp only [distance] at hc hd
    omega
  subst huv
  exact hy.not_lt hx hlt

theorem Nearest.of_magnitude {n : Nat}
    (hc : ∀ y : Finite, (x.magnitude - n : Int).natAbs ≤ (y.magnitude - n : Int).natAbs)
    (he : ∀ y : Finite, (y.magnitude - n : Int).natAbs = (x.magnitude - n : Int).natAbs →
      y.magnitude = x.magnitude ∨ x.mant % 2 = 0) :
    Nearest (if x.neg then -(n : Int) else n) x := by
  have hz := hc (zero false)
  have hz' : (zero false).magnitude = 0 := rfl
  have hx : x.units = if x.neg then -(x.magnitude : Int) else x.magnitude := rfl
  refine ⟨fun y => ?_, fun y hy => ?_⟩
  case refine_1 =>
    have hy := units_eq_or y
    have hc := hc y
    simp only [distance]
    cases hs : x.neg <;> simp only [hs, if_true, if_false, Bool.false_eq_true] at hx ⊢ <;> omega
  case refine_2 =>
    have hy' := units_eq_or y
    have hc := hc y
    have he := he y
    simp only [distance] at hy
    cases hs : x.neg <;>
      simp only [hs, if_true, if_false, Bool.false_eq_true] at hx hy <;> omega

end Finite

namespace Binary64

variable {n e : Nat}

-- If all digits are carried over, the exponent goes up by one.
theorem round_eq_finite (neg : Bool) (he : exponentOf n = e) (hlt : e < 2045) :
    ∃ x : Finite, round neg n 1 = .finite x ∧ x.neg = neg ∧
      x.magnitude = roundHalfEven n (2 ^ e) * 2 ^ e ∧
      x.mant % 2 = roundHalfEven n (2 ^ e) % 2 := by
  have hle : roundHalfEven n (2 ^ e) ≤ 2 ^ 53 := by
    have hlt := shiftRight_exponentOf_lt n
    rw [Nat.shiftRight_eq_div_pow, he] at hlt
    exact Nat.le_trans (roundHalfEven_le n _) hlt
  simp only [round, Nat.div_one, Nat.one_shiftLeft, he]
  split
  case isTrue h =>
    rw [make, dif_pos (Nat.le_of_lt hlt)]
    exact ⟨_, rfl, rfl, magnitude_eq _, rfl⟩
  case isFalse h =>
    have hq : roundHalfEven n (2 ^ e) = 2 ^ 53 := Nat.le_antisymm hle (Nat.not_lt.mp h)
    have hm : 0x10000000000000 * 2 ^ (e + 1) = 2 ^ 53 * 2 ^ e := by
      rw [Nat.pow_succ]
      omega
    have hp : 0x10000000000000 % 2 = 2 ^ 53 % 2 := by decide
    rw [make, dif_pos (Nat.succ_le_of_lt hlt), hq]
    exact ⟨_, rfl, rfl, (magnitude_eq _).trans hm, hp⟩

theorem nearest_round (neg : Bool) (hlt : exponentOf n < 2045) :
    ∃ x : Finite, round neg n 1 = .finite x ∧ x.Nearest (if neg then -(n : Int) else n) := by
  obtain ⟨e, he⟩ : ∃ e, exponentOf n = e := ⟨_, rfl⟩
  obtain ⟨x, hx, hs, hm, hp⟩ := round_eq_finite neg he (he ▸ hlt)
  have hclosest := roundHalfEven_closest n (Nat.two_pow_pos e)
  -- Numbers with smaller significands are too far below.
  have hbelow (y : Finite) (h : e ≠ 0 ∧ y.magnitude < 2 ^ 52 * 2 ^ e) :
      (x.magnitude - n : Int).natAbs < (y.magnitude - n : Int).natAbs := by
    have hn := le_shiftRight_exponentOf (he ▸ h.1)
    rw [Nat.shiftRight_eq_div_pow, he, Nat.le_div_iff_mul_le (Nat.two_pow_pos e)] at hn
    have hc := (hclosest (2 ^ 52)).1
    rw [hm]
    omega
  refine ⟨x, hx, hs ▸ .of_magnitude (fun y => ?_) (fun y hy => ?_)⟩
  case refine_1 =>
    rcases y.magnitude_multiple e with ⟨k, hk⟩ | h
    case inl => rw [hm, hk]; exact (hclosest k).1
    case inr => exact Nat.le_of_lt (hbelow y h)
  case refine_2 =>
    rcases y.magnitude_multiple e with ⟨k, hk⟩ | h
    case inl =>
      rw [hm, hk] at hy ⊢
      exact ((hclosest k).2 hy).imp (congrArg (· * 2 ^ e)) hp.trans
    case inr => exact absurd hy (Nat.ne_of_gt (hbelow y h))

theorem exponentOf_lt {k : Nat} (h : n < 2 ^ (k + 53)) : exponentOf n ≤ k := by
  by_cases hn : n = 0
  case pos => simp [hn, exponentOf]
  case neg =>
    have hl := (Nat.log2_lt hn).mpr h
    rw [exponentOf]
    omega

theorem nearest_ofInt {n : Int} (h : n.natAbs ≤ 2 ^ 64) :
    ∃ x : Finite, ofInt n = .finite x ∧ x.Nearest (n * Finite.one) := by
  have he : exponentOf (n.natAbs * Finite.one) < 2045 := by
    -- The exponent of one is no literal here, lest the power of two be computed.
    obtain ⟨t, ht, ho⟩ : ∃ t, t = 1074 ∧ Finite.one = 1 <<< t := ⟨1074, rfl, rfl⟩
    rw [Nat.one_shiftLeft] at ho
    rw [ho]
    have hlt : n.natAbs * 2 ^ t < 2 ^ (t + 12 + 53) := calc
      n.natAbs * 2 ^ t < 2 ^ 65 * 2 ^ t :=
        Nat.mul_lt_mul_of_pos_right (by omega) (Nat.two_pow_pos t)
      _ = 2 ^ (65 + t) := (Nat.pow_add ..).symm
      _ = 2 ^ (t + 12 + 53) := congrArg _ (by omega)
    have := exponentOf_lt hlt
    omega
  obtain ⟨x, hx, hn⟩ := nearest_round (n < 0) he
  have hu : (if decide (n < 0) then -((n.natAbs * Finite.one : Nat) : Int)
      else (n.natAbs * Finite.one : Nat)) = n * Finite.one := by
    rw [Int.natCast_mul]
    by_cases hn : n < 0
    case pos => simp [hn, abs_of_neg hn]
    case neg => simp [hn, abs_of_nonneg (Int.not_lt.mp hn)]
  exact ⟨x, hx, hu ▸ hn⟩

end Binary64

end JsonQuery
