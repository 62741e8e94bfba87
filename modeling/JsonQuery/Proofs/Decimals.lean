import Mathlib.Data.List.DropRight
import Mathlib.Data.Nat.Digits.Defs
import JsonQuery.Proofs.Lexing

namespace JsonQuery

open Binary64

namespace Finite

variable {x : Finite}

theorem powerOfTen_pos (n : Nat) : 0 < powerOfTen n := Nat.pow_pos (by decide)

theorem shiftLeft_pos {m : Nat} (h : 0 < m) (n : Nat) : 0 < m <<< n := by
  rw [Nat.shiftLeft_eq]
  exact Nat.mul_pos h (Nat.two_pow_pos n)

theorem one_pos : 0 < one := shiftLeft_pos (by decide) 1074

theorem mant_pos (h : x.isZero = false) : 0 < x.mant :=
  Nat.pos_of_ne_zero (by simpa [isZero] using h)

theorem below_lt_quarters (h : x.isZero = false) : x.below < x.quarters := by
  have hp : 0 < 2 ^ x.exp := Nat.two_pow_pos _
  have hq : 4 * 2 ^ x.exp ≤ x.quarters := by
    rw [quarters, magnitude, Nat.shiftLeft_eq]
    exact Nat.mul_le_mul_left 4 (Nat.le_mul_of_pos_left _ (mant_pos h))
  have hb : x.below ≤ 2 * 2 ^ x.exp := by
    rw [below, Nat.shiftLeft_eq, Nat.shiftLeft_eq]
    split <;> omega
  omega

-- Zero reads back as no other number.
theorem digits_pos_of_readsBack {d : Decimal} (h : x.isZero = false) (hd : x.readsBack d = true) :
    0 < d.digits := by
  refine Nat.pos_of_ne_zero fun hz => ?_
  have hs : scaled d = 0 := by simp [scaled, hz]
  have hl : 0 < (x.quarters - x.below) * scaleOf d.exp :=
    Nat.mul_pos (Nat.sub_pos_of_lt (below_lt_quarters h)) (powerOfTen_pos _)
  simp only [readsBack, hs] at hd
  split at hd
  case isTrue =>
    have hd := of_decide_eq_true (Bool.and_eq_true_iff.mp hd).1
    omega
  case isFalse => simp at hd

theorem powerOfTen_length_toDigits_le {n : Nat} (h : 0 < n) :
    powerOfTen ((Nat.toDigits 10 n).length - 1) ≤ n := by
  refine Nat.not_lt.mp fun hn => ?_
  have hl : 0 < (Nat.toDigits 10 n).length := List.length_pos_iff.mpr Nat.toDigits_ne_nil
  cases he : (Nat.toDigits 10 n).length - 1 with
  | zero =>
    rw [he] at hn
    exact absurd hn (Nat.not_lt.mpr h)
  | succ e =>
    rw [he] at hn
    have := Nat.toDigits_length 10 n (e + 1) (Nat.succ_pos e) hn
    omega

-- The place of the leading digit is no larger than the number.
theorem leadingExponent_eq (h : x.isZero = false) : ∃ n : Nat,
    x.leadingExponent = (n : Int) - 400 ∧ one * powerOfTen n ≤ x.magnitude * powerOfTen 400 := by
  have ho : one ≤ powerOfTen 400 := by decide +kernel
  have hm : 0 < x.magnitude := shiftLeft_pos (mant_pos h) _
  have hn : 0 < x.magnitude * powerOfTen 400 / one :=
    Nat.div_pos (Nat.le_trans ho (Nat.le_mul_of_pos_left _ hm)) one_pos
  have hl := powerOfTen_length_toDigits_le hn
  have hd := List.length_pos_iff.mpr (Nat.toDigits_ne_nil (n := x.magnitude * powerOfTen 400 / one)
    (b := 10))
  refine ⟨_, ?_, (Nat.mul_le_mul_left one hl).trans (Nat.mul_div_le _ _)⟩
  rw [leadingExponent]
  omega

-- Cut sixteen places behind its leading digit a number is not zero.
theorem cutAt_pos (h : x.isZero = false) : 0 < x.cutAt (x.leadingExponent - 16) := by
  obtain ⟨n, hn, hle⟩ := leadingExponent_eq h
  obtain ⟨e, he⟩ : ∃ e, e = x.leadingExponent - 16 := ⟨_, rfl⟩
  have hadd (a b : Nat) : powerOfTen (a + b) = powerOfTen a * powerOfTen b := Nat.pow_add 10 a b
  -- Both sides are multiplied with the same powers of ten, so that none of them is divided.
  have hc : one * powerOfTen e.toNat * powerOfTen 400 ≤
      x.magnitude * powerOfTen (-e).toNat * powerOfTen 400 := by
    have hexp : e.toNat + 400 ≤ n + (-e).toNat := by omega
    calc
      one * powerOfTen e.toNat * powerOfTen 400 = one * powerOfTen (e.toNat + 400) := by
        rw [hadd, Nat.mul_assoc]
      _ ≤ one * powerOfTen (n + (-e).toNat) :=
        Nat.mul_le_mul_left one (Nat.pow_le_pow_right (by decide) hexp)
      _ = one * powerOfTen n * powerOfTen (-e).toNat := by rw [hadd, Nat.mul_assoc]
      _ ≤ x.magnitude * powerOfTen 400 * powerOfTen (-e).toNat := Nat.mul_le_mul_right _ hle
      _ = x.magnitude * powerOfTen (-e).toNat * powerOfTen 400 := Nat.mul_right_comm ..
  have hc := Nat.le_of_mul_le_mul_right hc (powerOfTen_pos 400)
  rw [← he]
  refine Nat.div_pos ?_ (Nat.mul_pos (Nat.mul_pos (by decide) one_pos) (powerOfTen_pos _))
  rw [quarters, scaleOf, Nat.mul_assoc, Nat.mul_assoc]
  exact Nat.mul_le_mul_left 4 hc

theorem digits_shortest_pos (h : x.isZero = false) : 0 < x.shortest.digits := by
  simp only [shortest]
  cases hf : (List.range 17).findSome? fun n : Nat => x.nearestAt (x.leadingExponent - n) with
  | none   => exact cutAt_pos h
  | some d =>
    obtain ⟨n, _, hd⟩ := List.exists_of_findSome?_eq_some hf
    exact digits_pos_of_readsBack h (readsBack_of_nearestAt hd).1

end Finite

namespace Numeral

variable {digits rest : List Char} {neg : Bool}

-- A text of one or more digits.
def IsDigits (digits : List Char) : Prop := digits ≠ [] ∧ ∀ c ∈ digits, c.isDigit = true

theorem digitsOf_of_isDigits (h : IsDigits digits) (hr : ∀ c ∈ rest.head?, c.isDigit = false) :
    digitsOf (digits ++ rest) = (digits, rest) := by
  obtain ⟨ht, hd⟩ := takeWhile_append_of_head? h.2 hr
  rw [digitsOf, ht, hd]

theorem whole?_of_isDigits (h : IsDigits digits) (hz : digits.head? ≠ some '0')
    (hr : ∀ c ∈ rest.head?, c.isDigit = false) :
    whole? (digits ++ rest) = some (digits, rest) := by
  have hd := digitsOf_of_isDigits h hr
  obtain ⟨c, cs, e⟩ := List.exists_cons_of_ne_nil h.1
  have hc : c.isDigit = true := h.2 c (e ▸ List.mem_cons_self)
  have hz : c ≠ '0' := by simpa [e] using hz
  rw [e, List.cons_append] at hd ⊢
  simp only [whole?, hc, if_true, hd]

theorem fraction?_of_isDigits (h : IsDigits digits) (hr : ∀ c ∈ rest.head?, c.isDigit = false) :
    fraction? ('.' :: (digits ++ rest)) = some (some digits, rest) := by
  simp [fraction?, digitsOf_of_isDigits h hr, h.1]

theorem exponent?_of_isDigits {sign : Char} (hs : sign = '-' ∨ sign = '+') (h : IsDigits digits) :
    ∃ e, exponent? ('e' :: sign :: digits) = some (e, []) := by
  have hd (neg : Bool) : ∃ e, exponentDigits? neg digits = some (e, []) := by
    have hd : digitsOf (digits ++ []) = (digits, []) := digitsOf_of_isDigits h (by simp)
    rw [List.append_nil] at hd
    simp [exponentDigits?, hd, h.1]
  rcases hs with rfl | rfl
  case inl => exact hd true
  case inr => exact hd false

theorem read?_of_parts {text r r' whole : List Char} {fraction : Option (List Char)}
    {exponent : Option Int} (hw : whole? text = some (whole, r))
    (hf : fraction? r = some (fraction, r')) (he : exponent? r' = some (exponent, [])) :
    read? neg text = some (⟨neg, whole, fraction, exponent⟩, []) := by
  simp [read?, hw, hf, he]

end Numeral

namespace FloatFormat

open Numeral

variable {digits : List Char} {first : Int} {neg : Bool}

theorem isDigits_toDigits (n : Nat) : IsDigits (Nat.toDigits 10 n) :=
  ⟨Nat.toDigits_ne_nil, fun _ => Nat.isDigit_of_mem_toDigits (by decide) (by decide)⟩

theorem isDigit_of_mem_zeros {n : Nat} {c : Char} (h : c ∈ zeros n) : c.isDigit = true :=
  List.eq_of_mem_replicate h ▸ rfl

-- The digits of a positive number still start with the first one if the zeros behind are dropped.
theorem strip_toDigits {n : Nat} (h : 0 < n) : IsDigits (strip (Nat.toDigits 10 n)) ∧
    (strip (Nat.toDigits 10 n)).head? ≠ some '0' := by
  have hz := head_toDigits h
  obtain ⟨zs, hp⟩ : strip (Nat.toDigits 10 n) <+: Nat.toDigits 10 n :=
    List.rdropWhile_prefix (· == '0') _
  have hn : strip (Nat.toDigits 10 n) ≠ [] := by
    intro e
    have hall : ∀ c ∈ Nat.toDigits 10 n, (c == '0') = true := List.rdropWhile_eq_nil_iff.mp e
    obtain ⟨c, cs, e⟩ := List.exists_cons_of_ne_nil (Nat.toDigits_ne_nil (n := n) (b := 10))
    rw [e] at hz hall
    exact hz (congrArg some (eq_of_beq (hall c List.mem_cons_self)))
  refine ⟨⟨hn, fun c hc => ?_⟩, ?_⟩
  · exact (isDigits_toDigits n).2 c (hp ▸ List.mem_append_left zs hc)
  · rwa [← hp, List.head?_append_of_ne_nil _ hn] at hz

-- The first digits, as many as are asked for, and zeros where there are fewer of them.
theorem isDigits_take (h : IsDigits digits) (hz : digits.head? ≠ some '0') (n k : Nat) :
    IsDigits (digits.take (n + 1) ++ zeros k) ∧
      (digits.take (n + 1) ++ zeros k).head? ≠ some '0' := by
  obtain ⟨c, cs, e⟩ := List.exists_cons_of_ne_nil h.1
  subst e
  refine ⟨⟨by simp, fun d hd => ?_⟩, by simpa using hz⟩
  exact (List.mem_append.mp hd).elim (fun hd => h.2 d (List.mem_of_mem_take hd)) isDigit_of_mem_zeros

theorem read?_positional (h : IsDigits digits) (hz : digits.head? ≠ some '0') (neg : Bool)
    (first : Int) : ∃ n, Numeral.read? neg (positional digits first) = some (n, []) := by
  have hpoint {fraction : List Char} (hf : IsDigits fraction) :
      fraction? ('.' :: fraction) = some (some fraction, []) := by
    have hd : fraction? ('.' :: (fraction ++ [])) = some (some fraction, []) :=
      fraction?_of_isDigits hf (by simp)
    rwa [List.append_nil] at hd
  rw [positional]
  split
  case isTrue =>
    have hf : IsDigits (zeros (-first - 1).toNat ++ digits) :=
      ⟨by simp [h.1], fun c hc => (List.mem_append.mp hc).elim isDigit_of_mem_zeros (h.2 c)⟩
    exact ⟨_, read?_of_parts rfl (hpoint hf) rfl⟩
  case isFalse =>
    obtain ⟨hw, hwz⟩ := isDigits_take h hz first.toNat (first.toNat + 1 - digits.length)
    have hf : IsDigits (if (digits.drop (first.toNat + 1)).isEmpty then ['0']
        else digits.drop (first.toNat + 1)) := by
      split
      case isTrue => exact ⟨by simp, by simp⟩
      case isFalse hn => exact ⟨by simpa using hn, fun c hc => h.2 c (List.mem_of_mem_drop hc)⟩
    exact ⟨_, read?_of_parts (whole?_of_isDigits hw hwz (by simp)) (hpoint hf) rfl⟩

theorem read?_scientific (h : IsDigits digits) (hz : digits.head? ≠ some '0') (neg : Bool)
    (first : Int) : ∃ n, Numeral.read? neg (scientific digits first) = some (n, []) := by
  obtain ⟨hw, hwz⟩ := isDigits_take h hz 0 0
  rw [show zeros 0 = [] from rfl, List.append_nil] at hw hwz
  have hs : (if first < 0 then '-' else '+') = '-' ∨ (if first < 0 then '-' else '+') = '+' := by
    split
    case isTrue => exact .inl rfl
    case isFalse => exact .inr rfl
  obtain ⟨e, he⟩ := exponent?_of_isDigits hs (isDigits_toDigits first.natAbs)
  rw [scientific]
  split
  case isTrue =>
    rw [List.append_nil]
    exact ⟨_, read?_of_parts (whole?_of_isDigits hw hwz (by simp)) rfl he⟩
  case isFalse hl =>
    have hn : digits.drop 1 ≠ [] := fun e => hl (List.drop_eq_nil_iff.mp e)
    have hf : IsDigits (digits.drop 1) := ⟨hn, fun c hc => h.2 c (List.mem_of_mem_drop hc)⟩
    rw [List.append_assoc, List.cons_append]
    exact ⟨_, read?_of_parts (whole?_of_isDigits hw hwz (by simp))
      (fraction?_of_isDigits hf (by simp)) he⟩

theorem read?_write (f : FloatFormat) {d : Decimal} (h : 0 < d.digits) (neg : Bool) :
    ∃ n, Numeral.read? neg (f.write d) = some (n, []) := by
  obtain ⟨hd, hz⟩ := strip_toDigits h
  simp only [write]
  split
  case isTrue => exact read?_positional hd hz neg _
  case isFalse => exact read?_scientific hd hz neg _

end FloatFormat

namespace Number

theorem read?_signed {text : List Char} (neg : Bool)
    (h : ∀ neg, ∃ n, Numeral.read? neg text = some (n, [])) :
    ∃ m, Lexeme.read? (if neg then '-' :: text else text) = some (.num m, []) := by
  obtain ⟨n, hn⟩ := h neg
  cases neg with
  | true  => exact ⟨n.value?, by simp [Lexeme.read?, hn]⟩
  | false =>
    obtain ⟨c, cs, e, hc⟩ := Lexeme.head_of_numeral hn
    refine ⟨n.value?, ?_⟩
    rw [if_neg Bool.false_ne_true, e, Lexeme.read?_digit hc, ← e, hn]
    rfl

-- What is written for a number is a number of a document, even if it may not be the same one.
theorem read?_text (n : Number) : ∃ m, Lexeme.read? n.text = some (.num m, []) := by
  cases n with
  | int n =>
    have h := read?_signed (decide (n < 0)) fun neg => ⟨_, Numeral.read?_toDigits neg n.natAbs⟩
    simpa [text, integerText] using h
  | float x =>
    refine read?_signed x.neg fun neg => ?_
    cases hz : x.isZero with
    | true  => exact ⟨_, rfl⟩
    | false => exact format.read?_write (Finite.digits_shortest_pos hz) neg

-- The number that the text of a number is read as, unless it is too large.
def reading (n : Number) : Option Number :=
  match Lexeme.read? n.text with
  | some (.num m, _) => m
  | _ => none

theorem read?_text_eq (n : Number) : Lexeme.read? n.text = some (.num n.reading, []) := by
  obtain ⟨m, h⟩ := read?_text n
  simp only [reading, h]

theorem readsBack_iff {n : Number} : n.ReadsBack ↔ n.reading = some n := by
  rw [ReadsBack, read?_text_eq]
  simp

end Number

end JsonQuery
