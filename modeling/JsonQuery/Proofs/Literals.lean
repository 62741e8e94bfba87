import JsonQuery.Path.Printer
import JsonQuery.Proofs.SliceBounds
import JsonQuery.Proofs.Steady

namespace JsonQuery

namespace Quoted

-- The characters that a string of an expression can hold in quotes.
def isLegible (c : Char) : Bool := 0x20 ≤ c.toNat || c = '\n' || c = '\r' || c = '\t'

theorem contents?_backslash {c e : Char} (h : double? e = some c) (rest : List Char) :
    contents? '"' double? ('\\' :: e :: rest) =
      (contents? '"' double? rest).map fun (content, rest) => (c :: content, rest) := by
  rw [contents?, h, Option.map_eq_bind]
  rfl

theorem contents?_escape {c : Char} (h : isLegible c = true) (rest : List Char) :
    contents? '"' double? (Json.escape c ++ rest) =
      (contents? '"' double? rest).map fun (content, rest) => (c :: content, rest) := by
  unfold Json.escape
  split
  case isTrue hc =>
    subst hc
    exact contents?_backslash rfl rest
  case isFalse hd =>
    split
    case isTrue hc =>
      subst hc
      exact contents?_backslash rfl rest
    case isFalse hb =>
      split
      case isTrue hc =>
        have hl : c = '\n' ∨ c = '\r' ∨ c = '\t' := by
          simpa [isLegible, or_assoc, Nat.not_le.mpr hc] using h
        rcases hl with rfl | rfl | rfl <;> exact contents?_backslash rfl rest
      case isFalse =>
        have hc : ∀ e after, c = '\\' → rest = e :: after → False := fun _ _ e => absurd e hb
        rw [List.singleton_append, contents?, if_neg hd, if_neg hb, Option.map_eq_bind]
        · rfl
        · exact hc

theorem contents?_escapes {cs : List Char} (h : ∀ c ∈ cs, isLegible c = true) (rest : List Char) :
    contents? '"' double? (cs.flatMap Json.escape ++ '"' :: rest) = some (cs, rest) := by
  induction cs with
  | nil => simp [contents?]
  | cons c cs ih =>
    obtain ⟨hc, hcs⟩ := List.forall_mem_cons.mp h
    rw [List.flatMap_cons, List.append_assoc, contents?_escape hc, ih hcs]
    rfl

-- What is written in quotes is read again.
theorem read?_quoted {s : String} (h : ∀ c ∈ s.toList, isLegible c = true) (rest : List Char) :
    read? ((Json.quoted s).toList ++ rest) = some (s, rest) := by
  simp [Json.toList_quoted, read?, contents?_escapes h]

end Quoted

-- A text that starts like a number does not start like anything else between brackets.
def startsNumeral (c : Char) : Bool := c.isDigit || c = '-'

section

variable {i : Int}

theorem head_integerText (i : Int) :
    ∃ c cs, integerText i = c :: cs ∧ startsNumeral c = true := by
  unfold integerText
  split
  case isTrue => exact ⟨_, _, rfl, rfl⟩
  case isFalse =>
    have ⟨c, cs, h⟩ := List.exists_cons_of_ne_nil (Nat.toDigits_ne_nil (n := i.natAbs) (b := 10))
    have hc := Nat.isDigit_of_mem_toDigits (by decide) (by decide) (h ▸ List.mem_cons_self)
    exact ⟨c, cs, h, by simp [startsNumeral, hc]⟩

theorem signed64?_digits {n : Nat} (h : n < 0x8000000000000000) :
    signed64? (Nat.toDigits 10 n) = some (n : Int) := by
  have hn := natural?_toDigits n
  have ⟨c, cs, hcs⟩ := List.exists_cons_of_ne_nil (Nat.toDigits_ne_nil (n := n) (b := 10))
  have hc : c.isDigit = true :=
    Nat.isDigit_of_mem_toDigits (by decide) (by decide) (hcs ▸ List.mem_cons_self)
  have hm : c ≠ '-' := fun e => absurd (e ▸ hc) (by decide)
  have hp : c ≠ '+' := fun e => absurd (e ▸ hc) (by decide)
  rw [hcs] at hn ⊢
  simp [signed64?, dropPlus, hm, hp, hn, Option.filter, h]

theorem signed64?_integerText (h : isWord i = true) : signed64? (integerText i) = some i := by
  have ⟨hl, hu⟩ := Slice.isWord_iff.mp h
  unfold integerText
  split
  case isTrue hi =>
    have hn : i.natAbs ≤ 0x8000000000000000 := by omega
    simp only [signed64?, natural?_toDigits, Option.filter_some, hn, decide_true, if_true,
      Option.map_some]
    exact congrArg some (by omega)
  case isFalse hi =>
    rw [signed64?_digits (by omega)]
    exact congrArg some (by omega)

namespace Grammar

theorem integer?_of_ne {c : Char} (h : c ≠ '-') (text : List Char) : integer? (c :: text) =
    (signed64? ((c :: text).takeWhile Char.isDigit)).map
      (·, (c :: text).dropWhile Char.isDigit) := by
  simp [integer?, h]

theorem integer?_integerText (h : isWord i = true) {rest : List Char}
    (hr : ∀ c ∈ rest.head?, c.isDigit = false) :
    integer? (integerText i ++ rest) = some (i, rest) := by
  have hs := signed64?_integerText h
  have hdigits : ∀ c ∈ Nat.toDigits 10 i.natAbs, c.isDigit = true :=
    fun c => Nat.isDigit_of_mem_toDigits (by decide) (by decide)
  have ⟨ht, hd⟩ := takeWhile_append_of_head? hdigits hr
  unfold integerText at hs ⊢
  split
  case isTrue hi =>
    rw [if_pos hi] at hs
    simp only [List.cons_append, integer?, ht, hd]
    rw [List.nil_append, hs]
    rfl
  case isFalse hi =>
    rw [if_neg hi] at hs
    have ⟨c, cs, hcs⟩ := List.exists_cons_of_ne_nil (Nat.toDigits_ne_nil (n := i.natAbs) (b := 10))
    have hm : c ≠ '-' := fun e => absurd (e ▸ hdigits c (hcs ▸ List.mem_cons_self)) (by decide)
    rw [hcs] at hs ht hd ⊢
    rw [List.cons_append] at ht hd ⊢
    rw [integer?_of_ne hm, ht, hd, hs]
    rfl

theorem integer?_eq_none {c : Char} (h : startsNumeral c = false) (rest : List Char) :
    integer? (c :: rest) = none := by
  have ⟨hd, hm⟩ : c.isDigit = false ∧ c ≠ '-' := by simpa [startsNumeral] using h
  simp [integer?, hd, hm, signed64?, natural?, dropPlus]

theorem skipSpace_cons {c : Char} (h : Lexeme.isSpace c = false) (rest : List Char) :
    skipSpace (c :: rest) = c :: rest := by
  simp [skipSpace, h]

theorem isSpace_of_startsNumeral {c : Char} (h : startsNumeral c = true) :
    Lexeme.isSpace c = false := by
  cases hs : Lexeme.isSpace c with
  | false => rfl
  | true =>
    rcases Lexeme.isSpace_cases hs with rfl | rfl | rfl | rfl <;> cases h

theorem skipSpace_integerText (i : Int) (rest : List Char) :
    skipSpace (integerText i ++ rest) = integerText i ++ rest := by
  have ⟨c, cs, hc, hn⟩ := head_integerText i
  rw [hc]
  exact skipSpace_cons (isSpace_of_startsNumeral hn) _

variable {bound? : Option Int} {c : Char} {rest : List Char}

-- A bound that may be missing, in front of a character that belongs to no number.
theorem bound_text (h : bound?.all isWord = true) (hc : startsNumeral c = false) :
    bound (bound?.elim [] integerText ++ c :: rest) = (bound?, c :: rest) := by
  cases bound? with
  | none   => simp [bound, integer?_eq_none hc]
  | some i =>
    have hd : ∀ d ∈ (c :: rest).head?, d.isDigit = false := by
      simp only [startsNumeral, Bool.or_eq_false_iff] at hc
      simp [hc.1]
    simp [bound, integer?_integerText h hd]

theorem skipSpace_bound (bound? : Option Int) (hc : Lexeme.isSpace c = false) :
    skipSpace (bound?.elim [] integerText ++ c :: rest) =
      bound?.elim [] integerText ++ c :: rest := by
  cases bound? with
  | none   => exact skipSpace_cons hc rest
  | some i => exact skipSpace_integerText i _

theorem slice_text {s : Slice} (hs : s.step = none) (hf : s.fits = true) (rest : List Char) :
    slice (s.text ++ ']' :: rest) = .ok (some (s, ']' :: rest)) := by
  have ⟨start, stop, step⟩ := s
  subst hs
  have ⟨hstart, hstop⟩ : start.all isWord = true ∧ stop.all isWord = true := by
    simpa [Slice.fits] using hf
  have ht : Slice.text ⟨start, stop, none⟩ ++ ']' :: rest =
      start.elim [] integerText ++ ':' :: (stop.elim [] integerText ++ ']' :: rest) := by
    simp [Slice.text]
  rw [ht]
  simp only [slice, bound_text (c := ':') hstart rfl, skipSpace_cons (c := ':') rfl,
    skipSpace_bound (c := ']') stop rfl, bound_text (c := ']') hstop rfl,
    skipSpace_cons (c := ']') rfl]
  rfl

end Grammar

end

end JsonQuery
