import JsonQuery.Path.Rules

namespace JsonQuery.Grammar

-- What a rule leaves over is no longer than its text, and shorter if it cannot be empty.

theorem length_skipSpace (text : List Char) : (skipSpace text).length ≤ text.length := by
  simpa [skipSpace] using (List.dropWhile_sublist Lexeme.isSpace (l := text)).length_le

theorem length_question (text : List Char) : (question text).2.length ≤ text.length := by
  unfold question
  split <;> simp

theorem length_of_word? {text word rest : List Char} (h : word? text = some (word, rest)) :
    rest.length < text.length ∧ word.length ≤ text.length := by
  simp only [word?] at h
  split at h
  case isTrue => cases h
  case isFalse hw =>
    simp only [Option.some.injEq, Prod.mk.injEq] at h
    have ht := congrArg List.length (List.takeWhile_append_dropWhile (p := isWordChar) (l := text))
    simp only [List.length_append] at ht
    have : 0 < (text.takeWhile isWordChar).length := by
      rw [List.length_pos_iff]
      simpa using hw
    rw [← h.1, ← h.2]
    omega

theorem length_of_name? {text rest : List Char} {name : String}
    (h : name? text = some (name, rest)) : rest.length < text.length := by
  unfold name? at h
  split at h
  case _ found hq =>
    cases h
    exact Quoted.length_of_read? hq
  case _ =>
    simp only [Option.map_eq_some_iff, Prod.mk.injEq] at h
    obtain ⟨⟨_, _⟩, hw, -, rfl⟩ := h
    exact (length_of_word? hw).1

theorem length_of_integer? {text rest : List Char} {i : Int}
    (h : integer? text = some (i, rest)) : rest.length ≤ text.length := by
  unfold integer? at h
  split at h
  rename_i sign digits hs
  simp only [Option.map_eq_some_iff, Prod.mk.injEq] at h
  obtain ⟨_, -, -, rfl⟩ := h
  have hd := (List.dropWhile_sublist Char.isDigit (l := digits)).length_le
  split at hs <;> (cases hs; simp_all; try omega)

theorem length_bound (text : List Char) : (bound text).2.length ≤ text.length := by
  unfold bound
  split
  case _ h => exact length_of_integer? h
  case _ => simp

theorem length_of_slice {text rest : List Char} {s : Slice}
    (h : slice text = .ok (some (s, rest))) : rest.length < text.length := by
  simp only [slice] at h
  split at h
  case _ r hr =>
    split at h
    case _ => cases h
    case _ =>
      simp only [Except.ok.injEq, Option.some.injEq, Prod.mk.injEq] at h
      have h₁ := length_bound text
      have h₂ := length_skipSpace (bound text).2
      have h₃ := length_skipSpace r
      have h₄ := length_bound (skipSpace r)
      have h₅ := length_skipSpace (bound (skipSpace r)).2
      rw [hr] at h₂
      simp only [List.length_cons] at h₂
      rw [← h.2]
      omega
  case _ => cases h

theorem length_of_expect? {c : Char} {text rest : List Char} (h : expect? c text = some rest) :
    rest.length < text.length := by
  unfold expect? at h
  split at h
  case _ =>
    split at h <;> simp_all
  case _ => cases h

theorem length_of_comparison? {text rest : List Char} {op : Comparison}
    (h : comparison? text = some (op, rest)) : rest.length < text.length := by
  unfold comparison? at h
  split at h <;> cases h <;> simp only [List.length_cons] <;> omega

theorem length_of_operand? {text rest operand : List Char}
    (h : operand? text = some (operand, rest)) : rest.length ≤ text.length := by
  simp only [operand?] at h
  split at h
  case _ hq =>
    cases h
    exact Nat.le_of_lt (Quoted.length_of_read? hq)
  case _ =>
    split at h
    case isTrue => cases h
    case isFalse =>
      simp only [Option.some.injEq, Prod.mk.injEq] at h
      rw [← h.2]
      exact (List.dropWhile_sublist _).length_le

theorem length_of_compare? {text rest : List Char} {p : Predicate}
    (h : compare? text = some (p, rest)) : rest.length < text.length := by
  simp only [compare?, bind, Option.bind_eq_some_iff, pure, Option.some.injEq, Prod.mk.injEq] at h
  obtain ⟨r₁, h₁, r₂, h₂, r₃, h₃, ⟨_, r₄⟩, h₄, ⟨_, r₅⟩, h₅, ⟨_, r₆⟩, h₆, r₇, h₇, -, rfl⟩ := h
  dsimp only at h₅ h₆ h₇
  have := length_of_expect? h₁
  have := length_of_expect? h₂
  have := length_of_expect? h₃
  have := length_of_name? h₄
  have := length_of_comparison? h₅
  have := length_of_operand? h₆
  have := length_of_expect? h₇
  have := length_skipSpace r₁
  have := length_skipSpace r₄
  have := length_skipSpace r₅
  have := length_skipSpace r₆
  omega

theorem length_of_cut? {stops before after text : List Char}
    (h : Balanced.cut? stops 0 none text = some (before, after)) :
    before.length + after.length = text.length := by
  rw [← Balanced.append_of_cut? h, List.length_append]

theorem length_of_predicate {text rest : List Char} {p : Predicate}
    (h : predicate text = .ok (p, rest)) : rest.length ≤ text.length := by
  unfold predicate at h
  split at h
  case _ hc =>
    cases h
    exact Nat.le_of_lt (length_of_compare? hc)
  case _ =>
    split at h
    case _ =>
      split at h
      case _ => cases h
      case _ hc =>
        have := length_of_cut? hc
        split at h
        case _ =>
          simp only [Except.ok.injEq, Prod.mk.injEq] at h
          rw [← h.2]
          simp only [List.length_drop, List.length_cons]
          omega
        case _ => cases h
    case _ => cases h

theorem length_withMark (s : Segment) (text : List Char) :
    (withMark s text).2.length ≤ text.length := by
  have h := length_question text
  unfold withMark
  split <;> simp_all

theorem length_of_bracketBody {text rest : List Char} {s : Segment}
    (h : bracketBody text = .ok (some (s, rest))) : rest.length ≤ text.length := by
  unfold bracketBody at h
  split at h
  case _ r =>
    cases hp : predicate r with
    | error e => simp [hp, bind, Except.bind] at h
    | ok found =>
      obtain ⟨p, after⟩ := found
      have := length_of_predicate hp
      simp only [hp, bind, Except.bind, pure, Except.pure, Except.ok.injEq, Option.some.injEq,
        Prod.mk.injEq] at h
      rw [← h.2]
      simp only [List.length_cons]
      omega
  case _ =>
    cases h
    simp
  case _ =>
    split at h
    case _ hq =>
      cases h
      exact Nat.le_of_lt (Quoted.length_of_read? hq)
    case _ =>
      cases hs : slice text with
      | error e => simp [hs, bind, Except.bind] at h
      | ok found =>
        simp only [hs, bind, Except.bind] at h
        split at h
        case _ =>
          cases h
          exact Nat.le_of_lt (length_of_slice hs)
        case _ =>
          simp only [pure, Except.pure, Except.ok.injEq, Option.map_eq_some_iff,
            Prod.mk.injEq] at h
          obtain ⟨⟨_, _⟩, hi, -, rfl⟩ := h
          exact length_of_integer? hi

theorem length_of_closeBracket {text rest : List Char} {s s' : Segment}
    (h : closeBracket s text = .ok (some (s', rest))) : rest.length < text.length := by
  have hs := length_skipSpace text
  unfold closeBracket at h
  split at h
  case _ r he =>
    have hm := length_withMark s r
    simp only [Except.ok.injEq, Option.some.injEq] at h
    rw [h] at hm
    rw [he] at hs
    dsimp only at hm
    simp only [List.length_cons] at hs
    omega
  case _ => cases h

theorem length_of_bracket {text rest : List Char} {s : Segment}
    (h : bracket text = .ok (some (s, rest))) : rest.length < text.length := by
  unfold bracket at h
  split at h
  case _ r =>
    have hr := length_skipSpace r
    cases hb : bracketBody (skipSpace r) with
    | error e => simp [hb, bind, Except.bind] at h
    | ok found =>
      simp only [hb, bind, Except.bind] at h
      simp only [List.length_cons]
      split at h
      case _ =>
        have := length_of_closeBracket h
        have := length_of_bracketBody hb
        omega
      case _ =>
        have := length_of_closeBracket h
        omega
  case _ => cases h

theorem length_of_fieldValue? {text rest value : List Char}
    (h : fieldValue? text = some (value, rest)) :
    rest.length ≤ text.length ∧ value.length ≤ text.length := by
  simp only [fieldValue?] at h
  split at h
  case isTrue => cases h
  case isFalse =>
    simp only [Option.some.injEq, Prod.mk.injEq] at h
    obtain ⟨rfl, rfl⟩ := h
    cases hc : Balanced.cut? [',', '}'] 0 none text with
    | none =>
      have := Text.length_trimEnd_le text
      simpa using this
    | some found =>
      obtain ⟨before, after⟩ := found
      have h₁ := length_of_cut? hc
      have h₂ := Text.length_trimEnd_le before
      simp only [Option.getD_some]
      omega

theorem length_of_field? {text rest : List Char} {f : String × Option (List Char)}
    (h : field? text = some (f, rest)) :
    rest.length < text.length ∧ (f.2.getD []).length < text.length := by
  simp only [field?, Option.map_eq_some_iff] at h
  obtain ⟨⟨name, r⟩, hn, h⟩ := h
  have h₁ := length_of_name? hn
  have h₂ := length_skipSpace r
  dsimp only at h
  split at h
  case _ after he =>
    rw [he, List.length_cons] at h₂
    have h₃ := length_skipSpace after
    split at h
    case _ hv =>
      have h₄ := length_of_fieldValue? hv
      cases h
      simp only [Option.getD_some]
      omega
    case _ =>
      cases h
      rw [he]
      simp only [List.length_cons, Option.getD_none, List.length_nil]
      omega
  case _ =>
    cases h
    simp only [Option.getD_none, List.length_nil]
    omega

theorem length_of_comma? {text rest : List Char} (h : comma? text = some rest) :
    rest.length < text.length := by
  simp only [comma?, Option.map_eq_some_iff] at h
  obtain ⟨r, he, rfl⟩ := h
  have := length_of_expect? he
  have := length_skipSpace text
  have := length_skipSpace r
  omega

end JsonQuery.Grammar
