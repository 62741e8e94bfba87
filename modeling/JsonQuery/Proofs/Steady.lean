import JsonQuery.Path.Rules

namespace JsonQuery

theorem takeWhile_append_of_head? {p : Char → Bool} {taken rest : List Char}
    (ht : ∀ c ∈ taken, p c = true) (hr : ∀ c ∈ rest.head?, p c = false) :
    (taken ++ rest).takeWhile p = taken ∧ (taken ++ rest).dropWhile p = rest := by
  rw [List.takeWhile_append_of_pos ht, List.dropWhile_append_of_pos ht]
  cases rest with
  | nil => simp
  | cons c rest => simp [hr c rfl]

theorem head?_dropWhile {p : Char → Bool} {text : List Char} :
    ∀ c ∈ (text.dropWhile p).head?, p c = false := by
  intro c hc
  have h := List.head?_dropWhile_not p text
  rw [Option.mem_def.mp hc] at h
  exact h

-- What is taken of a text is taken in front of any other rest that starts with the same character.
theorem takeWhile_steady {p : Char → Bool} {text rest : List Char}
    (h : rest.head? = (text.dropWhile p).head?) :
    (text.takeWhile p ++ rest).takeWhile p = text.takeWhile p ∧
      (text.takeWhile p ++ rest).dropWhile p = rest :=
  takeWhile_append_of_head? (List.all_eq_true.mp List.all_takeWhile) (h ▸ head?_dropWhile)

namespace Balanced

-- Whatever follows the stop character, a text is cut in front of it.
theorem cut?_append {stops : List Char} {depth : Nat} {quote : Option Char}
    {text before after : List Char} {c : Char}
    (h : cut? stops depth quote text = some (before, c :: after)) (after' : List Char) :
    cut? stops depth quote (before ++ c :: after') = some (before, c :: after') := by
  fun_induction cut? stops depth quote text generalizing before with
  | case1 => cases h
  | case2 depth q d rest ih =>
    obtain ⟨⟨inner, _⟩, hr, e⟩ := Option.map_eq_some_iff.mp h
    cases e
    simp [cut?, ih hr]
  | case3 depth q d rest hd ih =>
    obtain ⟨⟨inner, _⟩, hr, e⟩ := Option.map_eq_some_iff.mp h
    cases e
    -- A backslash at the very end of the text would leave the string open.
    have hd : d ≠ '\\' := by
      intro hs
      cases rest with
      | nil => simp [cut?] at hr
      | cons e rest => exact hd e rest hs rfl
    simp [cut?, hd, ih hr]
  | case4 depth d rest hq ih =>
    obtain ⟨⟨inner, _⟩, hr, e⟩ := Option.map_eq_some_iff.mp h
    cases e
    simp [cut?, hq, ih hr]
  | case5 depth d rest hq ho ih =>
    obtain ⟨⟨inner, _⟩, hr, e⟩ := Option.map_eq_some_iff.mp h
    cases e
    simp [cut?, hq, ho, ih hr]
  | case6 depth d rest hq ho hc ih =>
    obtain ⟨⟨inner, _⟩, hr, e⟩ := Option.map_eq_some_iff.mp h
    cases e
    simp only [List.cons_append, cut?, hq, ho, hc, Bool.false_eq_true, if_true, if_false, ih hr,
      Option.map_some]
  | case7 depth d rest hq ho hc hs =>
    cases h
    simp only [List.nil_append, cut?, hq, ho, hc, hs, Bool.false_eq_true, if_true, if_false]
  | case8 depth d rest hq ho hc hs ih =>
    obtain ⟨⟨inner, _⟩, hr, e⟩ := Option.map_eq_some_iff.mp h
    cases e
    simp only [List.cons_append, cut?, hq, ho, hc, hs, Bool.false_eq_true, if_false, ih hr,
      Option.map_some]

end Balanced

namespace Quoted

-- A text that breaks off inside of a quoted string.
def Unclosed (text : List Char) : Prop := read? text = none ∧ ∃ more, read? (text ++ more) ≠ none

theorem contents?_append {quote : Char} {escape? : Char → Option Char} (hq : quote ≠ '\\')
    {text content rest : List Char} (h : contents? quote escape? text = some (content, rest)) :
    ∃ taken, text = taken ++ rest ∧
      ∀ rest', contents? quote escape? (taken ++ rest') = some (content, rest') := by
  fun_induction contents? quote escape? text generalizing content rest with
  | case1 => cases h
  | case2 e text ih =>
    obtain ⟨c, hc, h⟩ := Option.bind_eq_some_iff.mp h
    obtain ⟨⟨content, rest⟩, hr, e'⟩ := Option.bind_eq_some_iff.mp h
    cases e'
    obtain ⟨taken, ht, hs⟩ := ih hr
    exact ⟨'\\' :: e :: taken, by rw [ht]; rfl, fun rest' => by simp [contents?, hc, hs]⟩
  | case3 text _ =>
    cases h
    exact ⟨[quote], rfl, fun rest' => by simp [contents?, hq]⟩
  | case4 => cases h
  | case5 c text _ hcq hc ih =>
    obtain ⟨⟨content, rest⟩, hr, e⟩ := Option.bind_eq_some_iff.mp h
    cases e
    obtain ⟨taken, ht, hs⟩ := ih hr
    exact ⟨c :: taken, by rw [ht]; rfl, fun rest' => by simp [contents?, hcq, hc, hs]⟩

theorem read?_append {text rest : List Char} {s : String} (h : read? text = some (s, rest)) :
    ∃ taken, text = taken ++ rest ∧ ∀ rest', read? (taken ++ rest') = some (s, rest') := by
  unfold read? at h
  split at h
  case _ text | _ text =>
    have ⟨⟨content, r⟩, hr, e⟩ := Option.map_eq_some_iff.mp h
    cases e
    have ⟨taken, ht, hs⟩ := contents?_append (by decide) hr
    exact ⟨_ :: taken, by rw [ht]; rfl, fun rest' => by simp [read?, hs]⟩
  case _ => cases h

-- More text behind a quoted string changes nothing.
theorem read?_append_of_ne_none {text : List Char} (h : read? text ≠ none) (more : List Char) :
    read? (text ++ more) ≠ none := by
  have ⟨⟨s, rest⟩, hr⟩ := Option.ne_none_iff_exists'.mp h
  have ⟨taken, ht, hs⟩ := read?_append hr
  rw [ht, List.append_assoc, hs]
  exact Option.some_ne_none _

-- What follows a text that breaks off nowhere inside of a string does not make it one.
theorem read?_eq_none_of_not_unclosed {text more more' : List Char} (hu : ¬ Unclosed text)
    (h : read? (text ++ more) = none) : read? (text ++ more') = none := by
  by_cases ht : read? text = none
  case neg => exact absurd h (read?_append_of_ne_none ht more)
  case pos => exact Classical.byContradiction fun hm => hu ⟨ht, more', hm⟩

theorem read?_eq_none {c : Char} {rest : List Char} (h : c ≠ '"') (h' : c ≠ '\'') :
    read? (c :: rest) = none := by
  simp [read?, h, h']

end Quoted

namespace Grammar

-- A rule is steady if it takes the same from every text that goes on with the same character behind
-- what it takes.
def Steady {α : Type} (rule : List Char → Option (α × List Char)) : Prop :=
  ∀ text x rest, rule text = some (x, rest) → ∃ taken, text = taken ++ rest ∧
    ∀ rest', rest'.head? = rest.head? → rule (taken ++ rest') = some (x, rest')

section

variable {α β : Type} {rule : List Char → Option (α × List Char)}

theorem head?_append_congr {taken rest rest' : List Char} (h : rest'.head? = rest.head?) :
    (taken ++ rest').head? = (taken ++ rest).head? := by
  rw [List.head?_append, List.head?_append, h]

theorem Steady.bind {next : α → List Char → Option (β × List Char)} (h : Steady rule)
    (hn : ∀ x, Steady (next x)) :
    Steady fun text => (rule text).bind fun found => next found.1 found.2 := by
  intro text y rest hy
  have ⟨⟨x, mid⟩, hx, hy⟩ := Option.bind_eq_some_iff.mp hy
  have ⟨first, ht, hs⟩ := h text x mid hx
  have ⟨second, hm, hs'⟩ := hn x mid y rest hy
  refine ⟨first ++ second, by rw [ht, hm, List.append_assoc], fun rest' hr => ?_⟩
  have hf := hs (second ++ rest') (hm ▸ head?_append_congr hr)
  rw [List.append_assoc]
  exact Option.bind_eq_some_iff.mpr ⟨(x, second ++ rest'), hf, hs' rest' hr⟩

theorem skipSpace_steady (x : α) : Steady fun text => some (x, skipSpace text) := by
  intro text _ rest h
  cases h
  exact ⟨text.takeWhile Lexeme.isSpace, List.takeWhile_append_dropWhile.symm, fun rest' hr =>
    congrArg (fun rest => some (x, rest)) (takeWhile_steady hr).2⟩

theorem Steady.skipSpace (h : Steady rule) : Steady fun text => rule (Grammar.skipSpace text) :=
  (skipSpace_steady ()).bind fun _ => h

theorem expect?_eq_some {c : Char} {text rest : List Char} (h : expect? c text = some rest) :
    text = c :: rest := by
  unfold expect? at h
  split at h
  case _ d r =>
    split at h
    case isTrue hd  => rw [hd, Option.some.inj h]
    case isFalse => cases h
  case _ => cases h

theorem Steady.expect (h : Steady rule) (c : Char) :
    Steady fun text => (expect? c text).bind rule := by
  intro text x rest hx
  have ⟨r, hr, hx⟩ := Option.bind_eq_some_iff.mp hx
  have ⟨taken, ht, hs⟩ := h r x rest hx
  refine ⟨c :: taken, by rw [expect?_eq_some hr, ht]; rfl, fun rest' hr => ?_⟩
  simpa [expect?] using hs rest' hr

end

theorem word?_eq_some_iff {text word rest : List Char} : word? text = some (word, rest) ↔
    text = word ++ rest ∧ word ≠ [] ∧ (∀ c ∈ word, isWordChar c = true) ∧
      ∀ c ∈ rest.head?, isWordChar c = false := by
  constructor
  case mp =>
    intro h
    simp only [word?] at h
    split at h
    case isTrue => cases h
    case isFalse hw =>
      cases h
      exact ⟨List.takeWhile_append_dropWhile.symm, by simpa using hw,
        List.all_eq_true.mp List.all_takeWhile, head?_dropWhile⟩
  case mpr =>
    intro ⟨ht, hn, hw, hr⟩
    have ⟨htake, hdrop⟩ := takeWhile_append_of_head? hw hr
    simp [word?, ht, htake, hdrop, hn]

theorem word?_steady : Steady word? := by
  intro text word rest h
  have ⟨ht, hn, hw, hr⟩ := word?_eq_some_iff.mp h
  exact ⟨word, ht, fun rest' hr' => word?_eq_some_iff.mpr ⟨rfl, hn, hw, hr' ▸ hr⟩⟩

theorem comparison?_steady : Steady comparison? := by
  intro text op rest h
  -- The shorter signs are read only where no equals sign follows.
  have hne (hn : ∀ r, rest = '=' :: r → False) (rest' : List Char) (hr : rest'.head? = rest.head?) :
      ∀ r, rest' = '=' :: r → False := by
    intro r e
    rw [e, List.head?_cons] at hr
    have ⟨r, hr⟩ := List.head?_eq_some_iff.mp hr.symm
    exact hn r hr
  unfold comparison? at h
  split at h <;> cases h
  case h_1 => exact ⟨['=', '='], rfl, fun _ _ => rfl⟩
  case h_2 => exact ⟨['!', '='], rfl, fun _ _ => rfl⟩
  case h_3 => exact ⟨['>', '='], rfl, fun _ _ => rfl⟩
  case h_4 => exact ⟨['<', '='], rfl, fun _ _ => rfl⟩
  case h_5 hn => exact ⟨['>'], rfl, fun rest' hr => comparison?.eq_5 rest' (hne hn rest' hr)⟩
  case h_6 hn => exact ⟨['<'], rfl, fun rest' hr => comparison?.eq_6 rest' (hne hn rest' hr)⟩

-- A word does not start with a quote.
theorem read?_of_word? {text word rest : List Char} (h : word? text = some (word, rest)) :
    Quoted.read? text = none := by
  have ⟨ht, hn, hw, _⟩ := word?_eq_some_iff.mp h
  have ⟨c, cs, hc⟩ := List.exists_cons_of_ne_nil hn
  have hwc : isWordChar c = true := hw c (hc ▸ List.mem_cons_self)
  have hd : c ≠ '"' := fun e => absurd (e ▸ hwc) (by decide)
  have hs : c ≠ '\'' := fun e => absurd (e ▸ hwc) (by decide)
  rw [ht, hc]
  exact Quoted.read?_eq_none hd hs

theorem name?_steady : Steady name? := by
  intro text name rest h
  unfold name? at h
  split at h
  case _ found hq =>
    cases h
    have ⟨taken, ht, hs⟩ := Quoted.read?_append hq
    exact ⟨taken, ht, fun rest' _ => by rw [name?, hs]⟩
  case _ =>
    have ⟨⟨word, _⟩, hw, e⟩ := Option.map_eq_some_iff.mp h
    cases e
    have ⟨taken, ht, hs⟩ := word?_steady text word rest hw
    refine ⟨taken, ht, fun rest' hr => ?_⟩
    rw [name?, read?_of_word? (hs rest' hr), hs rest' hr]
    rfl

-- A comparison up to its literal: the key, the sign and the rest.
def comparing? (text : List Char) : Option ((String × Comparison) × List Char) := do
  let rest ← expect? '(' text
  let rest ← expect? '@' (skipSpace rest)
  let rest ← expect? '.' rest
  let (key, rest) ← name? rest
  let (op, rest) ← comparison? (skipSpace rest)
  return ((key, op), skipSpace rest)

theorem comparing?_steady : Steady comparing? :=
  Steady.expect (Steady.skipSpace (Steady.expect (Steady.expect (name?_steady.bind fun key =>
    Steady.skipSpace (comparison?_steady.bind fun op => skipSpace_steady (key, op))) '.') '@')) '('

theorem compare?_eq (text : List Char) : compare? text =
    (comparing? text).bind fun ((key, op), rest) =>
      (operand? rest).bind fun (operand, rest) =>
        (expect? ')' (skipSpace rest)).map fun rest =>
          (.compare key op (Literal.ofText operand), rest) := by
  simp only [compare?, comparing?, bind, Option.bind_assoc, pure, Option.bind_some,
    Option.map_eq_bind]
  rfl

theorem consumed_append (taken rest : List Char) : consumed (taken ++ rest) rest = taken := by
  simp [consumed]

-- A literal that is no unclosed string is the same and ends at its parenthesis whatever follows.
theorem operand?_append {text operand rest after : List Char}
    (h : operand? text = some (operand, rest)) (hr : skipSpace rest = ')' :: after) :
    ∃ taken, text = taken ++ ')' :: after ∧ (¬ Quoted.Unclosed (taken ++ [')']) →
      ∀ after', ∃ rest', operand? (taken ++ ')' :: after') = some (operand, rest') ∧
        skipSpace rest' = ')' :: after') := by
  simp only [operand?] at h
  split at h
  case _ s r hq =>
    cases h
    obtain ⟨first, ht, hs⟩ := Quoted.read?_append hq
    obtain ⟨second, hm, hs'⟩ := skipSpace_steady () rest () _ (congrArg (fun r => some ((), r)) hr)
    refine ⟨first ++ second, by rw [ht, hm, List.append_assoc], fun _ after' => ?_⟩
    refine ⟨second ++ ')' :: after', ?_, ?_⟩
    · rw [List.append_assoc]
      simp only [operand?, hs, ht, consumed_append]
    · simpa using hs' (')' :: after') rfl
  case _ hq =>
    split at h
    case isTrue => cases h
    case isFalse hn =>
      cases h
      obtain ⟨r, hd⟩ : ∃ r, text.dropWhile (· != ')') = ')' :: r := by
        cases hd : text.dropWhile (· != ')') with
        | nil => simp [hd, skipSpace] at hr
        | cons c r =>
          have hc : (c != ')') = false := head?_dropWhile c (by rw [hd]; rfl)
          have hc : c = ')' := by simpa using hc
          exact ⟨r, by rw [hc]⟩
      rw [hd] at hr
      have hr : r = after := by simpa [skipSpace, Lexeme.isSpace] using hr
      subst hr
      have ht : text = text.takeWhile (· != ')') ++ ')' :: r := by
        rw [← hd, List.takeWhile_append_dropWhile]
      refine ⟨_, ht, fun hu after' => ⟨')' :: after', ?_, rfl⟩⟩
      have hq' : Quoted.read? (text.takeWhile (· != ')') ++ ')' :: r) = none := ht ▸ hq
      have hq' : Quoted.read? (text.takeWhile (· != ')') ++ ')' :: after') = none := by
        rw [List.append_cons] at hq' ⊢
        exact Quoted.read?_eq_none_of_not_unclosed hu hq'
      have hh : (')' :: after').head? = (text.dropWhile (· != ')')).head? := by rw [hd]; rfl
      obtain ⟨ht', hd'⟩ := takeWhile_steady hh
      simp only [operand?, hq', ht', hd', hn]
      rfl

-- A selector is closed if it compares to no literal that is an unclosed string.
def Closed (selector : List Char) : Prop :=
  ∀ x rest, comparing? selector = some (x, rest) → ¬ Quoted.Unclosed rest

-- It is if its literal is a whole string or does not start with a quote.
theorem closed_of_compare? {selector after : List Char} {p : Predicate}
    (h : compare? selector = some (p, after))
    (hq : ∀ x rest, comparing? selector = some (x, rest) → Quoted.read? rest = none →
      rest.head? ≠ some '"' ∧ rest.head? ≠ some '\'') : Closed selector := by
  intro x rest hc hu
  have ⟨hn, more, hm⟩ := hu
  have ⟨hd, hs⟩ := hq x rest hc hn
  cases rest with
  | nil =>
    rw [compare?_eq, hc] at h
    cases h
  | cons c rest => exact hm (Quoted.read?_eq_none (by simpa using hd) (by simpa using hs))

theorem compare?_append {text after : List Char} {p : Predicate}
    (h : compare? text = some (p, after)) :
    ∃ taken, text = taken ++ after ∧ (Closed taken →
      ∀ after', compare? (taken ++ after') = some (p, after')) := by
  rw [compare?_eq] at h
  have ⟨⟨⟨key, op⟩, rest₁⟩, hc, h⟩ := Option.bind_eq_some_iff.mp h
  have ⟨⟨operand, rest₂⟩, ho, h⟩ := Option.bind_eq_some_iff.mp h
  have ⟨rest₃, he, e⟩ := Option.map_eq_some_iff.mp h
  cases e
  have ⟨first, ht, hs⟩ := comparing?_steady _ _ _ hc
  have ⟨second, hm, hs'⟩ := operand?_append ho (expect?_eq_some he)
  have hh (after' : List Char) : (second ++ ')' :: after').head? = rest₁.head? :=
    hm ▸ by simp only [List.head?_append, List.head?_cons]
  refine ⟨first ++ (second ++ [')']), by simp [ht, hm], fun hcl after' => ?_⟩
  have hu : ¬ Quoted.Unclosed (second ++ [')']) := hcl _ _ (hs _ (hh []))
  have ⟨rest', ho', he'⟩ := hs' hu after'
  rw [compare?_eq, List.append_assoc, List.append_assoc, List.singleton_append, hs _ (hh after')]
  simp only [Option.bind_some, ho', he']
  simp [expect?]

theorem predicate_append {text after : List Char} {p : Predicate}
    (h : predicate text = .ok (p, after)) :
    ∃ taken, text = taken ++ after ∧ (Closed taken →
      ∀ after', predicate (taken ++ after') = .ok (p, after')) := by
  unfold predicate at h
  split at h
  case _ hc =>
    cases h
    have ⟨taken, ht, hs⟩ := compare?_append hc
    exact ⟨taken, ht, fun hcl after' => by unfold predicate; rw [hs hcl after']⟩
  case _ =>
    split at h
    case _ rest _ =>
      split at h
      case _ => cases h
      case _ inner after₀ hcut =>
        have ⟨c, r, e, hc⟩ := Balanced.head_of_cut? hcut
        have hc : c = '}' := by simpa using hc
        subst e
        subst hc
        split at h
        case _ members hr =>
          cases h
          have ht := Balanced.append_of_cut? hcut
          refine ⟨'{' :: inner ++ ['}'], by simp [← ht], fun _ after' => ?_⟩
          have hcut' := Balanced.cut?_append hcut after'
          have hn : compare? ('{' :: (inner ++ '}' :: after')) = none := by simp [compare?, expect?]
          simp only [List.cons_append, List.append_assoc, List.nil_append, predicate, hn, hcut']
          rw [List.cons_append] at hr
          rw [hr]
          rfl
        case _ => cases h
    case _ => cases h

end Grammar

end JsonQuery
