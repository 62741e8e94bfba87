import JsonQuery.Path.Grammar
import JsonQuery.Proofs.Literals
import JsonQuery.Proofs.Run

namespace JsonQuery

namespace Grammar

-- What follows a segment in the text of a path.
def Follows (rest : List Char) : Prop := ∀ c ∈ rest.head?, c = '.' ∨ c = '['

section

variable {rest : List Char} {c : Char} {i : Int} {s : Segment}

theorem question_mark (hr : Follows rest) (optional : Bool) :
    question ((Segment.mark optional).toList ++ rest) = (optional, rest) := by
  cases optional with
  | true  => rfl
  | false =>
    cases rest with
    | nil => rfl
    | cons c rest => cases hr c rfl <;> subst c <;> rfl

theorem withMark_mark (hr : Follows rest) (s : Segment) (optional : Bool) :
    withMark s ((Segment.mark optional).toList ++ rest) =
      (if optional then s.makeOptional else s, rest) := by
  rw [withMark, question_mark hr]
  cases optional <;> rfl

theorem bracket_of_body {text : List Char} (ht : skipSpace text = text)
    (hb : bracketBody text = .ok (some (s, ']' :: rest))) :
    bracket ('[' :: text) = .ok (some (withMark s rest)) := by
  simp only [bracket, ht, hb, bind, Except.bind, closeBracket, skipSpace_cons (c := ']') rfl]

-- Between brackets a number is not taken for anything else, and neither is a colon or nothing.
theorem bracketBody_eq (h : startsNumeral c = true ∨ c = ':' ∨ c = ']') :
    bracketBody (c :: rest) = (slice (c :: rest)).bind fun
      | some (s, after) => .ok (some (.slice s, after))
      | none => .ok ((integer? (c :: rest)).map fun (i, after) => (.index i false, after)) := by
  have hn (d : Char) (hd : startsNumeral d = false) (hd' : d ≠ ':' ∧ d ≠ ']') : c ≠ d := by
    intro e
    subst e
    simp [hd, hd'.1, hd'.2] at h
  have hq : Quoted.read? (c :: rest) = none :=
    Quoted.read?_eq_none (hn '"' rfl (by decide)) (hn '\'' rfl (by decide))
  have hs := hn '?' rfl (by decide)
  have hc := hn '*' rfl (by decide)
  simp [bracketBody, hq, hs, hc]
  rfl

theorem bracketBody_quoted {name : String} (h : ∀ c ∈ name.toList, Quoted.isLegible c = true)
    (rest : List Char) :
    bracketBody ((Json.quoted name).toList ++ rest) = .ok (some (.key name false, rest)) := by
  have hq := Quoted.read?_quoted h rest
  rw [Json.toList_quoted] at hq ⊢
  simp only [List.cons_append] at hq ⊢
  simp only [bracketBody, hq]
  rfl

theorem slice_eq_none {text : List Char} {bound? : Option Int}
    (h : bound text = (bound?, ']' :: rest)) : slice text = .ok none := by
  simp only [slice, h, skipSpace_cons (c := ']') rfl]
  rfl

theorem bracketBody_integerText (h : isWord i = true) (rest : List Char) :
    bracketBody (integerText i ++ ']' :: rest) = .ok (some (.index i false, ']' :: rest)) := by
  have hi : integer? (integerText i ++ ']' :: rest) = some (i, ']' :: rest) :=
    integer?_integerText h (by simp)
  have hs : slice (integerText i ++ ']' :: rest) = .ok none := slice_eq_none (by rw [bound, hi])
  obtain ⟨c, cs, hc, hn⟩ := head_integerText i
  rw [hc, List.cons_append] at hi hs ⊢
  rw [bracketBody_eq (.inl hn), hs, hi]
  rfl

theorem bracketBody_nil (rest : List Char) : bracketBody (']' :: rest) = .ok none := by
  have hi : integer? (']' :: rest) = none := integer?_eq_none rfl rest
  have hs : slice (']' :: rest) = .ok none := slice_eq_none (by rw [bound, hi])
  rw [bracketBody_eq (.inr (.inr rfl)), hs, hi]
  rfl

theorem head_slice_text (s : Slice) (rest : List Char) :
    ∃ c cs, s.text ++ rest = c :: cs ∧ (startsNumeral c = true ∨ c = ':') := by
  cases hs : s.start with
  | none   => exact ⟨':', _, by simp only [Slice.text, hs]; rfl, .inr rfl⟩
  | some i =>
    obtain ⟨c, cs, hc, hn⟩ := head_integerText i
    exact ⟨c, _, by simp only [Slice.text, hs, Option.elim_some, hc]; rfl, .inl hn⟩

theorem skipSpace_slice_text (s : Slice) (rest : List Char) :
    skipSpace (s.text ++ rest) = s.text ++ rest := by
  have ⟨c, cs, hc, hn⟩ := head_slice_text s rest
  rw [hc]
  cases hn with
  | inl hn => exact skipSpace_cons (isSpace_of_startsNumeral hn) cs
  | inr hn => exact hn ▸ skipSpace_cons rfl cs

theorem bracketBody_slice {s : Slice} (hs : s.step = none) (hf : s.fits = true) (rest : List Char) :
    bracketBody (s.text ++ ']' :: rest) = .ok (some (.slice s, ']' :: rest)) := by
  have ht := slice_text hs hf rest
  have ⟨c, cs, hc, hn⟩ := head_slice_text s (']' :: rest)
  rw [hc] at ht ⊢
  rw [bracketBody_eq (hn.imp_right .inl), ht]
  rfl

-- What is read for a selector is its text.
theorem predicate_of_bracketBody {text after : List Char} {p : Predicate} {raw : String}
    (h : bracketBody text = .ok (some (.selector p raw, after))) :
    ∃ taken, raw.toList = '?' :: taken ∧ text = raw.toList ++ after ∧
      predicate (taken ++ after) = .ok (p, after) := by
  unfold bracketBody at h
  split at h
  case _ r =>
    obtain ⟨⟨q, after'⟩, hp, e⟩ := bind_eq_ok_iff.mp h
    cases e
    obtain ⟨taken, ht, _⟩ := predicate_append hp
    have hraw : consumed ('?' :: r) after = '?' :: taken := by
      rw [ht]
      exact consumed_append ('?' :: taken) after
    rw [hraw, String.toList_ofList]
    exact ⟨taken, rfl, by rw [ht]; rfl, ht ▸ hp⟩
  case _ => cases h
  case _ =>
    split at h
    case _ => cases h
    case _ =>
      obtain ⟨found, _, h⟩ := bind_eq_ok_iff.mp h
      split at h
      case _ => cases h
      case _ =>
        obtain ⟨_, _, e⟩ := Option.map_eq_some_iff.mp (Except.ok.inj h)
        cases e

-- A selector is read again from its text if it is closed.
theorem bracketBody_selector {text after : List Char} {p : Predicate} {raw : String}
    (h : bracketBody text = .ok (some (.selector p raw, after))) :
    ∃ taken, raw.toList = '?' :: taken ∧ (Closed taken →
      ∀ rest, bracketBody (raw.toList ++ rest) = .ok (some (.selector p raw, rest))) := by
  obtain ⟨taken, hraw, _, hp⟩ := predicate_of_bracketBody h
  obtain ⟨taken', ht, hs⟩ := predicate_append hp
  obtain rfl := List.append_cancel_right ht
  refine ⟨taken, hraw, fun hc rest => ?_⟩
  rw [hraw, List.cons_append, bracketBody, hs hc]
  simp only [bind, Except.bind]
  rw [← List.cons_append, consumed_append, ← hraw, String.ofList_toList]
  rfl

end

end Grammar

end JsonQuery
