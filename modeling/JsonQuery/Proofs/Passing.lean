import JsonQuery.Proofs.Enclosing
import JsonQuery.Proofs.Joining
import JsonQuery.Proofs.Lexing

namespace JsonQuery

open JsonQuery.Balanced

theorem Text.trimEnd_append (text : List Char) :
    ∃ blanks, text = trimEnd text ++ blanks ∧ blanks.all isBlank = true := by
  refine ⟨(text.reverse.takeWhile isBlank).reverse, ?_, by simp [-List.all_eq_true]⟩
  rw [trimEnd, ← List.reverse_append, List.takeWhile_append_dropWhile, List.reverse_reverse]

-- Whether the numbers of a segment can be written in an expression.
def Segment.Sized : Segment → Prop
  | .index i _ => isWord i = true
  | .slice s => s.step = none ∧ s.fits = true
  | _ => True

theorem neutral_quoted (s : String) : Neutral (Json.quoted s).toList := by
  have hr : Lexeme.read? ((Json.quoted s).toList ++ []) = some (.str (some s), []) :=
    Lexeme.read?_quoted s []
  obtain ⟨taken, ht, hs⟩ := Lexeme.tracks_of_read? hr
  rw [List.append_nil, List.append_nil] at ht
  rw [ht]
  exact fun depth => hs depth 0 0 rfl

theorem neutral_integerText (i : Int) : Neutral (integerText i) := by
  refine neutral_of_isPlain (List.all_eq_true.mpr fun c hc => ?_)
  have hd : ∀ d ∈ Nat.toDigits 10 i.natAbs, isPlain d = true := fun d hd =>
    isPlain_of (p := Char.isDigit) (by decide)
      (Nat.isDigit_of_mem_toDigits (by decide) (by decide) hd)
  unfold integerText at hc
  split at hc
  case isTrue =>
    rcases List.mem_cons.mp hc with rfl | hc
    case inl => rfl
    case inr => exact hd c hc
  case isFalse => exact hd c hc

theorem neutral_word {word : List Char} (h : ∀ c ∈ word, isWordChar c = true) : Neutral word :=
  neutral_of_isPlain (List.all_eq_true.mpr fun c hc =>
    isPlain_of (p := isWordChar) (by decide) (h c hc))

theorem neutral_mark (optional : Bool) : Neutral (Segment.mark optional).toList := by
  cases optional <;> exact neutral_of_isPlain (by decide)

theorem neutral_slice_text (s : Slice) : Neutral s.text := by
  have hb (bound? : Option Int) : Neutral (bound?.elim [] integerText) := by
    cases bound? with
    | none => exact neutral_nil
    | some i => exact neutral_integerText i
  have hc : Neutral [':'] := neutral_of_isPlain (by decide)
  have hs : Neutral (s.step.elim [] fun n => ':' :: integerText n) := by
    cases s.step with
    | none => exact neutral_nil
    | some n => exact hc.append (neutral_integerText n)
  have ht : s.text = s.start.elim [] integerText ++ ([':'] ++ s.stop.elim [] integerText) ++
      s.step.elim [] fun n => ':' :: integerText n := by
    simp [Slice.text]
  rw [ht]
  exact ((hb s.start).append (hc.append (hb s.stop))).append hs

-- What is written for a segment but a selector is passed as a whole.
theorem Segment.neutral_render {s : Segment} (ha : s.isAddressable = true)
    (hs : s.isSelector = false) : Neutral s.render.toList := by
  cases s with
  | key name optional =>
    cases hp : isPlainKey name with
    | true =>
      have ht : (Segment.key name optional).render.toList =
          name.toList ++ (Segment.mark optional).toList := by
        simp [Segment.render, hp]
      rw [ht]
      exact (neutral_word (Grammar.isPlainKey_eq_true hp).2.1).append (neutral_mark optional)
    | false =>
      have ht : (Segment.key name optional).render.toList =
          '[' :: (Json.quoted name).toList ++ [']'] ++ (Segment.mark optional).toList := by
        simp [Segment.render, hp]
      rw [ht]
      exact (neutral_enclosed rfl rfl (neutral_quoted name)).append (neutral_mark optional)
  | index i optional =>
    have ht : (Segment.index i optional).render.toList =
        '[' :: integerText i ++ [']'] ++ (Segment.mark optional).toList := by
      simp [Segment.render]
    rw [ht]
    exact (neutral_enclosed rfl rfl (neutral_integerText i)).append (neutral_mark optional)
  | children optional =>
    cases optional with
    | true =>
      have hn : Neutral ('[' :: ['*'] ++ [']'] ++ ['?']) :=
        (neutral_enclosed rfl rfl (neutral_of_isPlain (by decide))).append
          (neutral_of_isPlain (by decide))
      exact hn
    | false => exact neutral_of_isPlain (by decide)
  | elements optional =>
    have ht : (Segment.elements optional).render.toList =
        '[' :: [] ++ [']'] ++ (Segment.mark optional).toList := by
      simp [Segment.render]
    rw [ht]
    exact (neutral_enclosed rfl rfl neutral_nil).append (neutral_mark optional)
  | slice sl =>
    have ht : (Segment.slice sl).render.toList = '[' :: sl.text ++ [']'] := by
      simp [Segment.render]
    rw [ht]
    exact neutral_enclosed rfl rfl (neutral_slice_text sl)
  | selector p text => cases hs
  | call f text => cases ha
  | literal v => cases ha
  | construct fields => cases ha

namespace Grammar

variable {text rest : List Char} {s : Segment}

theorem passes_skipSpace (text : List Char) : Passes text (skipSpace text) :=
  passes_dropWhile (by decide) text

theorem passes_of_word? {word : List Char} (h : word? text = some (word, rest)) :
    Passes text rest := by
  obtain ⟨ht, _, hw, _⟩ := word?_eq_some_iff.mp h
  exact ⟨word, ht, neutral_word hw⟩

theorem passes_of_name? {name : String} (h : name? text = some (name, rest)) :
    Passes text rest := by
  unfold name? at h
  split at h
  case _ found hq =>
    cases h
    exact Quoted.passes_of_read? hq
  case _ =>
    obtain ⟨⟨word, _⟩, hw, e⟩ := Option.map_eq_some_iff.mp h
    cases e
    exact passes_of_word? hw

theorem passes_question (text : List Char) : Passes text (question text).2 := by
  unfold question
  split
  case _ => exact passes_char (by decide) _
  case _ => exact passes_refl _

theorem passes_withMark (s : Segment) (text : List Char) : Passes text (withMark s text).2 := by
  have h := passes_question text
  unfold withMark
  split
  case _ e | _ e =>
    rw [e] at h
    exact h

theorem passes_of_integer? {i : Int} (h : integer? text = some (i, rest)) :
    Passes text rest ∧ isWord i = true := by
  have hw {digits : List Char} (hd : signed64? digits = some i) : isWord i = true :=
    Slice.isWord_iff.mpr (signed64?_bounds hd)
  cases text with
  | nil => cases h
  | cons c text =>
    by_cases hm : c = '-'
    case pos =>
      rw [hm, integer?_minus] at h
      obtain ⟨n, hn, e⟩ := Option.map_eq_some_iff.mp h
      cases e
      have hp := passes_char (c := '-') (by decide) text
      exact ⟨hm ▸ hp.trans (passes_dropWhile (by decide) text), hw hn⟩
    case neg =>
      rw [integer?_of_ne hm] at h
      obtain ⟨n, hn, e⟩ := Option.map_eq_some_iff.mp h
      cases e
      exact ⟨passes_dropWhile (by decide) (c :: text), hw hn⟩

theorem passes_bound (text : List Char) :
    Passes text (bound text).2 ∧ (bound text).1.all isWord = true := by
  unfold bound
  split
  case _ h =>
    obtain ⟨hp, hi⟩ := passes_of_integer? h
    exact ⟨hp, hi⟩
  case _ => exact ⟨passes_refl _, rfl⟩

theorem passes_of_slice {sl : Slice} (h : slice text = .ok (some (sl, rest))) :
    Passes text rest ∧ (Segment.slice sl).Sized := by
  simp only [slice] at h
  split at h
  case _ r hr =>
    split at h
    case _ => cases h
    case _ =>
      simp only [Except.ok.injEq, Option.some.injEq, Prod.mk.injEq] at h
      obtain ⟨rfl, rfl⟩ := h
      obtain ⟨hp, hi⟩ := passes_bound text
      obtain ⟨hp', hi'⟩ := passes_bound (skipSpace r)
      have hc : Passes (skipSpace (bound text).2) r := hr ▸ passes_char (by decide) r
      refine ⟨?_, rfl, by simp [Slice.fits, hi, hi']⟩
      exact (hp.trans (passes_skipSpace _)).trans
        ((hc.trans (passes_skipSpace r)).trans (hp'.trans (passes_skipSpace _)))
  case _ => cases h

theorem passes_of_comparison? {op : Comparison} (h : comparison? text = some (op, rest)) :
    Passes text rest := by
  unfold comparison? at h
  split at h <;> cases h
  case h_5 | h_6 => exact passes_char (by decide) _
  all_goals exact (passes_char (by decide) _).trans (passes_char (by decide) _)

theorem passes_of_expect? {c : Char} (hc : isPlain c = true) (h : expect? c text = some rest) :
    Passes text rest :=
  expect?_eq_some h ▸ passes_char hc rest

end Grammar

namespace Quoted

theorem eq_none_of_push {c : Char} {found : Option (List Char × List Char)}
    (h : (found.bind fun found => some (c :: found.1, found.2)) = none) : found = none := by
  cases found with
  | none   => rfl
  | some _ => cases h

-- No further text makes a string of one that the scan has left without reading it.
theorem contents?_append_eq_none {quote : Char} {escape? : Char → Option Char} {text : List Char}
    (h : contents? quote escape? text = none)
    (ho : text.foldl Mark.next (.inside quote) = .outside) (more : List Char) :
    contents? quote escape? (text ++ more) = none := by
  fun_induction contents? quote escape? text with
  | case1 => cases ho
  | case2 e text ih =>
    rw [List.cons_append, List.cons_append, contents?]
    cases hc : escape? e with
    | none => rfl
    | some c =>
      rw [hc] at h
      simp [ih (eq_none_of_push h) ho]
  | case3 text _ => cases h
  | case4 text hs hn =>
    cases text with
    | nil => simp [Mark.next] at ho
    | cons e text => exact absurd rfl (hs e text rfl)
  | case5 c text hs hcq hc ih =>
    have hstep : Mark.next (.inside quote) c = .inside quote := by simp [Mark.next, hc, hcq]
    rw [List.foldl_cons, hstep] at ho
    simp [contents?, hcq, hc, ih (eq_none_of_push h) ho]

theorem not_unclosed_of_closes {c : Char} {text : List Char} (h : Closes (c :: text)) :
    ¬ Unclosed (c :: text) := by
  rintro ⟨hn, more, hm⟩
  by_cases hq : c = '"' ∨ c = '\''
  case neg =>
    obtain ⟨hd, hs⟩ := not_or.mp hq
    exact hm (read?_eq_none hd hs)
  case pos =>
    rcases hq with rfl | rfl
    all_goals
      have hn := contents?_append_eq_none (by simpa [read?] using hn) h more
      exact hm (by simp [read?, hn])

end Quoted

namespace Grammar

variable {text rest : List Char}

-- In front of the literal of a comparison no string is left open.
theorem closes_of_comparing? {x : String × Comparison} (h : comparing? text = some (x, rest))
    (hc : Closes text) : Closes rest := by
  obtain ⟨r₁, h₁, h⟩ := Option.bind_eq_some_iff.mp h
  obtain ⟨r₂, h₂, h⟩ := Option.bind_eq_some_iff.mp h
  obtain ⟨r₃, h₃, h⟩ := Option.bind_eq_some_iff.mp h
  obtain ⟨⟨key, r₄⟩, h₄, h⟩ := Option.bind_eq_some_iff.mp h
  obtain ⟨⟨op, r₅⟩, h₅, h⟩ := Option.bind_eq_some_iff.mp h
  cases h
  have hkey : Passes r₁ r₄ :=
    ((passes_skipSpace r₁).trans (passes_of_expect? (by decide) h₂)).trans
      ((passes_of_expect? (by decide) h₃).trans (passes_of_name? h₄))
  have hsign : Passes r₄ (skipSpace r₅) :=
    ((passes_skipSpace r₄).trans (passes_of_comparison? h₅)).trans (passes_skipSpace r₅)
  obtain ⟨taken, ht, hn⟩ := hkey.trans hsign
  rw [expect?_eq_some h₁, ht] at hc
  exact (closes_append_iff hn.closes).mp hc

-- A comparison has a literal behind its sign.
theorem comparing?_of_compare? {taken after : List Char} {p : Predicate}
    (h : compare? (taken ++ after) = some (p, after)) :
    ∃ x c rest, comparing? taken = some (x, c :: rest) := by
  rw [compare?_eq] at h
  obtain ⟨⟨⟨key, op⟩, rest₁⟩, hc, h⟩ := Option.bind_eq_some_iff.mp h
  obtain ⟨⟨operand, rest₂⟩, ho, h⟩ := Option.bind_eq_some_iff.mp h
  obtain ⟨rest₃, he, e⟩ := Option.map_eq_some_iff.mp h
  cases e
  obtain ⟨first, ht, hs⟩ := comparing?_steady _ _ _ hc
  obtain ⟨second, hm, _⟩ := operand?_append ho (expect?_eq_some he)
  have htaken : taken = first ++ (second ++ [')']) := by
    have ha : taken ++ after = first ++ (second ++ [')']) ++ after := by
      rw [ht, hm]
      simp
    exact List.append_cancel_right ha
  have hh : (second ++ [')']).head? = rest₁.head? := by
    rw [hm, List.head?_append, List.head?_append]
    rfl
  obtain ⟨c, rest, e⟩ := List.exists_cons_of_ne_nil (l := second ++ [')']) (by simp)
  exact ⟨_, c, rest, by rw [htaken, hs _ hh, e]⟩

theorem closed_of_closes {taken after : List Char} {p : Predicate}
    (h : predicate (taken ++ after) = .ok (p, after)) (hc : Closes taken) : Closed taken := by
  intro x rest hx
  unfold predicate at h
  split at h
  case _ found hcom =>
    cases h
    obtain ⟨y, c, rest', hy⟩ := comparing?_of_compare? hcom
    cases hy.symm.trans hx
    exact Quoted.not_unclosed_of_closes (closes_of_comparing? hx hc)
  case _ =>
    split at h
    case _ e =>
      cases taken with
      | nil => cases hx
      | cons c taken =>
        cases e
        cases hx
    case _ => cases h

end Grammar

end JsonQuery
