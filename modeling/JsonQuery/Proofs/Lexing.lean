import JsonQuery.Json.Printer
import JsonQuery.Json.Reader
import JsonQuery.Proofs.Steady

namespace JsonQuery

namespace Numeral

variable {text rest : List Char} {neg : Bool} {n : Numeral}

-- Whether a text cannot go on with a number that ends in front of it.
def Ends (rest : List Char) : Prop :=
  ∀ c ∈ rest.head?, c.isDigit = false ∧ c ≠ '.' ∧ c ≠ 'e' ∧ c ≠ 'E'

theorem digitsOf_append (hr : Ends rest) (text : List Char) :
    digitsOf (text ++ rest) = ((digitsOf text).1, (digitsOf text).2 ++ rest) := by
  induction text with
  | nil =>
    cases rest with
    | nil => rfl
    | cons c rest => simp [digitsOf, (hr c rfl).1]
  | cons c text ih =>
    obtain ⟨ht, hd⟩ := Prod.mk.inj ih
    cases hc : c.isDigit <;> simp [digitsOf, hc]
    exact ⟨ht, hd⟩

theorem whole?_append {whole r : List Char} (hr : Ends rest) (h : whole? text = some (whole, r)) :
    whole? (text ++ rest) = some (whole, r ++ rest) := by
  unfold whole? at h
  split at h
  case _ =>
    cases h
    rfl
  case _ c r _ =>
    split at h
    case isTrue hd =>
      have he := Option.some.inj h
      simp only [List.cons_append, whole?, hd, if_true]
      rw [← List.cons_append, digitsOf_append hr, he]
    case isFalse => cases h
  case _ => cases h

theorem fraction?_append {fraction : Option (List Char)} {r : List Char} (hr : Ends rest)
    (h : fraction? text = some (fraction, r)) :
    fraction? (text ++ rest) = some (fraction, r ++ rest) := by
  unfold fraction? at h
  split at h
  case _ text =>
    simp only [List.cons_append, fraction?, digitsOf_append hr]
    dsimp only at h
    split at h
    case isTrue => cases h
    case isFalse hn =>
      cases h
      rw [if_neg hn]
  case _ hd =>
    cases h
    cases text with
    | nil =>
      cases rest with
      | nil => rfl
      | cons c rest => simp [fraction?, (hr c rfl).2.1]
    | cons c text =>
      have hc : c ≠ '.' := fun e => hd text (e ▸ rfl)
      simp [fraction?, hc]

theorem exponentDigits?_append {e : Option Int} {r : List Char} (hr : Ends rest)
    (h : exponentDigits? neg text = some (e, r)) :
    exponentDigits? neg (text ++ rest) = some (e, r ++ rest) := by
  unfold exponentDigits? at h ⊢
  rw [digitsOf_append hr]
  dsimp only at h ⊢
  split at h
  case isTrue => cases h
  case isFalse hn =>
    cases h
    rw [if_neg hn]

theorem exponent?_append {e : Option Int} {r : List Char} (hr : Ends rest)
    (h : exponent? text = some (e, r)) : exponent? (text ++ rest) = some (e, r ++ rest) := by
  cases text with
  | nil =>
    cases h
    cases rest with
    | nil => rfl
    | cons c rest => simp [exponent?, (hr c rfl).2.2.1, (hr c rfl).2.2.2]
  | cons c text =>
    unfold exponent? at h ⊢
    rw [List.cons_append]
    dsimp only at h ⊢
    split at h
    case isFalse hc =>
      cases h
      rw [if_neg hc]
      rfl
    case isTrue hc =>
      rw [if_pos hc]
      split at h
      case _ => exact exponentDigits?_append hr h
      case _ => exact exponentDigits?_append hr h
      case _ hm hp =>
        cases text with
        | nil => cases h
        | cons d text =>
          have hm : d ≠ '-' := fun e => hm text (e ▸ rfl)
          have hp : d ≠ '+' := fun e => hp text (e ▸ rfl)
          have h := exponentDigits?_append hr h
          simpa [hm, hp] using h

-- A whole text that is a number is the same number in front of other text.
theorem read?_append (hr : Ends rest) (h : read? neg text = some (n, [])) :
    read? neg (text ++ rest) = some (n, rest) := by
  simp only [read?, bind, Option.bind_eq_some_iff, pure, Option.some.injEq, Prod.mk.injEq] at h
  obtain ⟨⟨whole, r₁⟩, hw, ⟨fraction, r₂⟩, hf, ⟨exponent, r₃⟩, he, e, rfl⟩ := h
  subst e
  simp only [read?, whole?_append hr hw, fraction?_append hr hf, exponent?_append hr he, bind,
    Option.bind_some, pure, List.nil_append]

theorem le_ofDigitChars (digits : List Char) (start : Nat) :
    start ≤ Nat.ofDigitChars 10 digits start := by
  induction digits generalizing start with
  | nil => exact Nat.le_refl start
  | cons c digits ih =>
    rw [Nat.ofDigitChars_cons]
    have := ih (10 * start + (c.toNat - '0'.toNat))
    omega

theorem absorb_eq {digits : List Char} {start : Nat}
    (h : Nat.ofDigitChars 10 digits start < 0x10000000000000000) :
    absorb start digits = (Nat.ofDigitChars 10 digits start, []) := by
  induction digits generalizing start with
  | nil => rfl
  | cons c digits ih =>
    rw [Nat.ofDigitChars_cons] at h ⊢
    have hn := Nat.lt_of_le_of_lt (le_ofDigitChars digits _) h
    rw [absorb, if_pos hn]
    exact ih h

theorem head_toDigits {n : Nat} (h : 0 < n) : (Nat.toDigits 10 n).head? ≠ some '0' := by
  induction n using Nat.strongRecOn with
  | ind n ih =>
    rw [Nat.toDigits_eq_if (by decide)]
    split
    case isTrue hn =>
      have hd : ∀ n < 10, 0 < n → [n.digitChar].head? ≠ some '0' := by decide
      exact hd n hn h
    case isFalse hn =>
      obtain ⟨c, cs, e⟩ :=
        List.exists_cons_of_ne_nil (Nat.toDigits_ne_nil (n := n / 10) (b := 10))
      have hc := ih (n / 10) (by omega) (by omega)
      rw [e] at hc ⊢
      exact hc

theorem whole?_toDigits (n : Nat) : whole? (Nat.toDigits 10 n) = some (Nat.toDigits 10 n, []) := by
  by_cases h : n = 0
  case pos =>
    subst h
    rfl
  case neg =>
    have hd (c : Char) (hc : c ∈ Nat.toDigits 10 n) : c.isDigit = true :=
      Nat.isDigit_of_mem_toDigits (by decide) (by decide) hc
    have hz := head_toDigits (Nat.pos_of_ne_zero h)
    obtain ⟨ht, hr⟩ : (Nat.toDigits 10 n ++ []).takeWhile Char.isDigit = Nat.toDigits 10 n ∧
        (Nat.toDigits 10 n ++ []).dropWhile Char.isDigit = [] :=
      takeWhile_append_of_head? hd (by simp)
    obtain ⟨c, cs, e⟩ := List.exists_cons_of_ne_nil (Nat.toDigits_ne_nil (n := n) (b := 10))
    rw [List.append_nil] at ht hr
    rw [e] at hz hd ht hr ⊢
    have hc : c ≠ '0' := by simpa using hz
    have hcd : c.isDigit = true := hd c List.mem_cons_self
    simp only [whole?, hcd, if_true, digitsOf, ht, hr]

theorem read?_toDigits (neg : Bool) (n : Nat) : read? neg (Nat.toDigits 10 n) =
    some (⟨neg, Nat.toDigits 10 n, none, none⟩, []) := by
  simp [read?, whole?_toDigits, fraction?, exponent?]

end Numeral

namespace Lexeme

theorem read?_digit {c : Char} (hc : c.isDigit = true) (text : List Char) :
    read? (c :: text) =
      (Numeral.read? false (c :: text)).map fun (n, rest) => (num n.value?, rest) := by
  unfold read?
  split
  case h_12 => rfl
  all_goals
    rename_i h
    have h := (List.cons.inj h).1
    exact absurd (h ▸ hc) (by decide)

theorem head_of_whole? {text whole rest : List Char}
    (h : Numeral.whole? text = some (whole, rest)) :
    ∃ c cs, text = c :: cs ∧ c.isDigit = true := by
  unfold Numeral.whole? at h
  split at h
  case _ r => exact ⟨'0', r, rfl, rfl⟩
  case _ c r _ =>
    split at h
    case isTrue hc => exact ⟨c, r, rfl, hc⟩
    case isFalse => cases h
  case _ => cases h

theorem head_of_numeral {neg : Bool} {text rest : List Char} {n : Numeral}
    (h : Numeral.read? neg text = some (n, rest)) : ∃ c cs, text = c :: cs ∧ c.isDigit = true := by
  obtain ⟨_, hw, _⟩ := Option.bind_eq_some_iff.mp h
  exact head_of_whole? hw

-- A whole text that is a number is the same number in front of other text.
theorem read?_num_append {text rest : List Char} {n : Option Number} (hr : Numeral.Ends rest)
    (h : read? text = some (num n, [])) : read? (text ++ rest) = some (num n, rest) := by
  unfold read? at h
  split at h
  case h_10 =>
    obtain ⟨_, _, e⟩ := Option.map_eq_some_iff.mp h
    cases e
  case h_11 =>
    obtain ⟨⟨m, r⟩, hm, e⟩ := Option.map_eq_some_iff.mp h
    cases e
    simp only [List.cons_append, read?, Numeral.read?_append hr hm, Option.map_some]
  case h_12 =>
    obtain ⟨⟨m, r⟩, hm, e⟩ := Option.map_eq_some_iff.mp h
    cases e
    obtain ⟨c, cs, e, hc⟩ := head_of_numeral hm
    have hm := Numeral.read?_append hr hm
    rw [e, List.cons_append] at hm ⊢
    rw [read?_digit hc, hm]
    rfl
  all_goals cases h

-- How a character is written in a string.
def part (c : Char) : Part :=
  if c.toNat < 0x20 ∧ Json.shortEscape c = none then .unit c.toNat else .char c

theorem parts?_backslash {c e : Char} (hu : e ≠ 'u') (h : shortEscape? e = some c)
    (rest : List Char) : parts? ('\\' :: e :: rest) =
      (parts? rest).map fun (ps, rest) => (.char c :: ps, rest) := by
  rw [parts?, h, Option.map_eq_bind]
  · rfl
  · intro _ _ _ _ _ he
    exact absurd he hu

theorem shortEscape?_of_shortEscape {c e : Char} (h : Json.shortEscape c = some e) :
    e ≠ 'u' ∧ shortEscape? e = some c := by
  unfold Json.shortEscape at h
  split at h
  case h_6 => cases h
  all_goals
    rename_i hc
    rw [← Char.ofNat_toNat c, hc]
    cases h
    decide

-- The control characters without a short escape are written in hexadecimal.
theorem parts?_hexadecimal {n : Nat} (h : n < 0x20) (rest : List Char) :
    parts? ('\\' :: 'u' :: '0' :: '0' :: (n / 16).digitChar :: (n % 16).digitChar :: rest) =
      (parts? rest).map fun (ps, rest) => (.unit n :: ps, rest) := by
  have hu : ∀ n < 0x20, unit? '0' '0' (n / 16).digitChar (n % 16).digitChar = some n := by decide
  rw [parts?, hu n h, Option.map_eq_bind]
  rfl

theorem parts?_plain {c : Char} (hn : ¬ c.toNat < 0x20) (hq : c ≠ '"') (hb : c ≠ '\\')
    (rest : List Char) :
    parts? (c :: rest) = (parts? rest).map fun (ps, rest) => (.char c :: ps, rest) := by
  rw [parts?, if_neg (by simp [hn, hb]), Option.map_eq_bind]
  · rfl
  · exact hq
  · intro _ _ _ _ _ he
    exact absurd he hb
  · intro _ _ he
    exact absurd he hb

theorem parts?_escape (c : Char) (rest : List Char) : parts? (Json.escape c ++ rest) =
    (parts? rest).map fun (ps, rest) => (part c :: ps, rest) := by
  unfold Json.escape
  split
  case isTrue hc =>
    subst hc
    exact parts?_backslash (by decide) rfl rest
  case isFalse hq =>
    split
    case isTrue hc =>
      subst hc
      exact parts?_backslash (by decide) rfl rest
    case isFalse hb =>
      split
      case isTrue hn =>
        split
        case _ e he =>
          have hs : part c = .char c := if_neg fun h => by simp [he] at h
          obtain ⟨hu, hc⟩ := shortEscape?_of_shortEscape he
          rw [hs]
          exact parts?_backslash hu hc rest
        case _ he =>
          rw [part, if_pos ⟨hn, he⟩]
          exact parts?_hexadecimal hn rest
      case isFalse hn =>
        rw [part, if_neg fun h => hn h.1]
        exact parts?_plain hn hq hb rest

theorem characters?_unit {n : Nat} (h : n < 0x20) (ps : List Part) :
    characters? (.unit n :: ps) = (characters? ps).map (Char.ofNat n :: ·) := by
  have hh : isHigh n = false := by simp [isHigh]; omega
  have hl : isLow n = false := by simp [isLow]; omega
  match ps with
  | [] => simp [characters?, hh, hl]
  | .char c :: ps => simp [characters?, hh, hl]
  | .unit m :: ps => simp [characters?, hh, hl]

theorem characters?_part (cs : List Char) : characters? (cs.map part) = some cs := by
  induction cs with
  | nil => rfl
  | cons c cs ih =>
    rw [List.map_cons, part]
    split
    case isTrue h => rw [characters?_unit h.1, ih, Option.map_some, Char.ofNat_toNat]
    case isFalse => rw [characters?, ih, Option.map_some]

theorem read?_quoted (s : String) (rest : List Char) :
    read? ((Json.quoted s).toList ++ rest) = some (str (some s), rest) := by
  have hp (cs : List Char) : parts? (cs.flatMap Json.escape ++ '"' :: rest) =
      some (cs.map part, rest) := by
    induction cs with
    | nil => rfl
    | cons c cs ih =>
      rw [List.flatMap_cons, List.append_assoc, parts?_escape, ih]
      rfl
  simp [Json.toList_quoted, read?, hp, characters?_part]

end Lexeme

namespace Number

-- Whether a number is the one that its text is read as. Integers in the range of 64 bits are, floats
-- are where the reader is exact.
def ReadsBack (n : Number) : Prop := Lexeme.read? n.text = some (.num (some n), [])

theorem readsBack_int {n : Int} (hl : -0x8000000000000000 ≤ n) (hu : n < 0x10000000000000000) :
    (Number.int n).ReadsBack := by
  have habs : Numeral.absorb 0 (Nat.toDigits 10 n.natAbs) = (n.natAbs, []) := by
    have hn : Nat.ofDigitChars 10 (Nat.toDigits 10 n.natAbs) 0 = n.natAbs :=
      Nat.ofDigitChars_ten_toDigits
    rw [Numeral.absorb_eq (by omega), hn]
  unfold ReadsBack
  rw [text, integerText]
  split
  case isTrue hn =>
    have hz : n.natAbs ≠ 0 := by omega
    have hm : ¬ 0x8000000000000000 < n.natAbs := by omega
    have hi : -(n.natAbs : Int) = n := by omega
    generalize n.natAbs = m at habs hz hm hi ⊢
    simp [Lexeme.read?, Numeral.read?_toDigits, Numeral.value?, habs, hz, hm, hi]
  case isFalse hn =>
    have hi : (n.natAbs : Int) = n := by omega
    obtain ⟨c, cs, e⟩ := List.exists_cons_of_ne_nil (Nat.toDigits_ne_nil (n := n.natAbs) (b := 10))
    have hc : c.isDigit = true :=
      Nat.isDigit_of_mem_toDigits (by decide) (by decide) (e ▸ List.mem_cons_self)
    have hr := Numeral.read?_toDigits false n.natAbs
    rw [e] at hr ⊢
    rw [Lexeme.read?_digit hc, hr, ← e]
    simp [Numeral.value?, habs, hi]

end Number

end JsonQuery
