import JsonQuery.Proofs.Finding

namespace JsonQuery

namespace Text

variable {part text before after u w x y : List Char} {d : Char}

theorem occursIn_iff : occursIn part text = true ↔ part <:+: text := by
  induction text with
  | nil => simp [occursIn]
  | cons c text ih => simp [occursIn, List.infix_cons_iff, ih]

-- The nearest character that is not ignored.
def nearest? (text : List Char) : Option Char := (text.dropWhile isCaseIgnorable).head?

theorem meetsCased_eq (text : List Char) : meetsCased text = (nearest? text).any isCased := by
  unfold meetsCased nearest?
  split <;> simp [*]

theorem nearest?_append (a b : List Char) :
    nearest? (a ++ b) = (nearest? a).or (nearest? b) := by
  simp only [nearest?, List.dropWhile_append, List.isEmpty_iff]
  split
  case isTrue h => simp [h]
  case isFalse h =>
    obtain ⟨c, cs, e⟩ := List.exists_cons_of_ne_nil h
    simp [e]

-- Whether the form of a capital sigma follows from what is in front of it and behind it in a text,
-- whatever is around that text.
def isFixed (before after : List Char) : Bool :=
  match nearest? before, nearest? after with
  | some _, some _ => true
  | some c, none   => !isCased c
  | none,   some c => isCased c
  | none,   none   => false

theorem lowerSigma_of_isFixed (h : isFixed before after = true) (x y : List Char) :
    lowerSigma (before ++ x) (after ++ y) = lowerSigma before after := by
  simp only [isFixed] at h
  simp only [lowerSigma, meetsCased_eq, nearest?_append]
  split at h <;> simp_all

def fixedFrom (before : List Char) : List Char → Bool
  | []     => true
  | c :: r => (c != '\u03A3' || isFixed before r) && fixedFrom (c :: before) r

-- Whether the lower case of a text is the same within every other text.
def isSettled (s : String) : Bool := fixedFrom [] s.toList

theorem fixedFrom_of_not_mem (h : '\u03A3' ∉ text) (before : List Char) :
    fixedFrom before text = true := by
  induction text generalizing before with
  | nil => rfl
  | cons c r ih =>
    obtain ⟨hc, hr⟩ : '\u03A3' ≠ c ∧ '\u03A3' ∉ r := by simpa using h
    simp [fixedFrom, Ne.symm hc, ih hr]

-- No other letter takes different forms.
theorem isSettled_of_not_mem {s : String} (h : '\u03A3' ∉ s.toList) : isSettled s = true :=
  fixedFrom_of_not_mem h []

theorem lowerFrom_append_of_fixedFrom (h : fixedFrom before text = true) (x y : List Char) :
    lowerFrom (before ++ x) (text ++ y) =
      lowerFrom before text ++ lowerFrom (text.reverse ++ (before ++ x)) y := by
  induction text generalizing before with
  | nil => rfl
  | cons c r ih =>
    obtain ⟨hc, hr⟩ : (c ≠ '\u03A3' ∨ isFixed before r = true) ∧ fixedFrom (c :: before) r = true := by
      simpa [fixedFrom] using h
    have hhead : (if c = '\u03A3' then [lowerSigma (before ++ x) (r ++ y)] else lowerChar c) =
        if c = '\u03A3' then [lowerSigma before r] else lowerChar c := by
      rcases hc with hc | hf
      · simp [hc]
      · rw [lowerSigma_of_isFixed hf]
    have hrest := ih hr
    rw [List.cons_append] at hrest
    simp [lowerFrom, hhead, hrest]

theorem exists_lowerFrom_append (before a b : List Char) :
    ∃ head, lowerFrom before (a ++ b) = head ++ lowerFrom (a.reverse ++ before) b := by
  induction a generalizing before with
  | nil => exact ⟨[], rfl⟩
  | cons c a ih =>
    obtain ⟨head, e⟩ := ih (c :: before)
    refine ⟨(if c = '\u03A3' then [lowerSigma before (a ++ b)] else lowerChar c) ++ head, ?_⟩
    rw [List.cons_append, lowerFrom, e]
    simp

theorem infix_lowerFrom (h : fixedFrom [] part = true) (hi : part <:+: text) :
    lowerFrom [] part <:+: lowerFrom [] text := by
  obtain ⟨a, b, rfl⟩ := hi
  obtain ⟨head, e⟩ := exists_lowerFrom_append [] a (part ++ b)
  have hp := lowerFrom_append_of_fixedFrom h a.reverse b
  rw [List.nil_append] at hp
  rw [List.append_assoc, e, List.append_nil, hp, ← List.append_assoc]
  exact ⟨head, _, rfl⟩

theorem exists_of_fixedFrom (h : fixedFrom before text = false) :
    ∃ u w, text = u ++ '\u03A3' :: w ∧ isFixed (u.reverse ++ before) w = false := by
  induction text generalizing before with
  | nil => cases h
  | cons c r ih =>
    rw [fixedFrom, Bool.and_eq_false_iff] at h
    rcases h with h | h
    case inl =>
      obtain ⟨rfl, hf⟩ : c = '\u03A3' ∧ isFixed before r = false := by simpa using h
      exact ⟨[], r, rfl, hf⟩
    case inr =>
      obtain ⟨u, w, rfl, hf⟩ := ih h
      exact ⟨c :: u, w, rfl, by simpa using hf⟩

section

-- Between `x` and `y` no other sigma takes the form `d`.
variable (hs : ∀ before after, lowerSigma (before ++ x) (after ++ y) = d →
    lowerSigma before after = d)
  (hy : ∀ before, (lowerFrom before y).count d = 0)

include hs

theorem count_lower_le (c : Char) (before r : List Char) :
    (if c = '\u03A3' then [lowerSigma (before ++ x) (r ++ y)] else lowerChar c).count d ≤
      (if c = '\u03A3' then [lowerSigma before r] else lowerChar c).count d := by
  split
  case isTrue =>
    rw [List.count_singleton, List.count_singleton]
    by_cases h : lowerSigma (before ++ x) (r ++ y) = d
    case pos => simp [h, hs before r h]
    case neg => simp [h]
  case isFalse => exact Nat.le_refl _

include hy

theorem count_lowerFrom_le (before text : List Char) :
    (lowerFrom (before ++ x) (text ++ y)).count d ≤ (lowerFrom before text).count d := by
  induction text generalizing before with
  | nil => exact Nat.le_of_eq (hy (before ++ x))
  | cons c r ih =>
    rw [List.cons_append, lowerFrom, lowerFrom, List.count_append, List.count_append]
    exact Nat.add_le_add (count_lower_le hs c before r) (ih (c :: before))

-- One sigma less is one that has changed its form.
theorem count_lowerFrom_lt (before : List Char) (h : lowerSigma (u.reverse ++ before) w = d)
    (hne : lowerSigma (u.reverse ++ before ++ x) (w ++ y) ≠ d) :
    (lowerFrom (before ++ x) (u ++ '\u03A3' :: w ++ y)).count d <
      (lowerFrom before (u ++ '\u03A3' :: w)).count d := by
  induction u generalizing before with
  | nil =>
    have hrest := count_lowerFrom_le hs hy ('\u03A3' :: before) w
    simp only [List.reverse_nil, List.nil_append] at h hne
    simp only [List.nil_append, List.cons_append, lowerFrom, if_true, List.count_cons, h] at hrest ⊢
    simp [hne]
    omega
  | cons c u ih =>
    have hhead := count_lower_le hs c before (u ++ '\u03A3' :: w)
    have hrest := ih (c :: before) (by simpa using h) (by simpa using hne)
    rw [List.cons_append, List.cons_append, lowerFrom, lowerFrom, List.count_append,
      List.count_append]
    exact Nat.add_lt_add_of_le_of_lt hhead hrest

end

theorem nearest?_letter : nearest? ['a'] = some 'a' := by decide

theorem isCased_letter : isCased 'a' = true := by decide

theorem lowerChar_letter : lowerChar 'a' = ['a'] := by decide

-- With a letter in front of the text the first sigma ends a word, if no letter follows it.
theorem count_front_lt (hu : nearest? u.reverse = none) (hw : (nearest? w).any isCased = false) :
    (lowerFrom ['a'] (u ++ '\u03A3' :: w)).count '\u03C3' <
      (lowerFrom [] (u ++ '\u03A3' :: w)).count '\u03C3' := by
  have hs (before after : List Char) (h : lowerSigma (before ++ ['a']) (after ++ []) = '\u03C3') :
      lowerSigma before after = '\u03C3' := by
    simp only [lowerSigma, meetsCased_eq, nearest?_append, List.append_nil, nearest?_letter] at h ⊢
    cases hb : nearest? before <;> simp_all
  have hlt := count_lowerFrom_lt hs (fun _ => rfl) [] (u := u) (w := w)
    (by simp [lowerSigma, meetsCased_eq, hu])
    (by simp [lowerSigma, meetsCased_eq, nearest?_append, hu, hw, nearest?_letter, isCased_letter])
  simpa using hlt

-- With a letter behind the text no sigma ends a word there.
theorem count_behind_lt {c : Char} (hu : nearest? u.reverse = some c) (hc : isCased c = true)
    (hw : nearest? w = none) :
    (lowerFrom [] (u ++ '\u03A3' :: w ++ ['a'])).count '\u03C2' <
      (lowerFrom [] (u ++ '\u03A3' :: w)).count '\u03C2' := by
  have hs (before after : List Char) (h : lowerSigma (before ++ []) (after ++ ['a']) = '\u03C2') :
      lowerSigma before after = '\u03C2' := by
    simp only [lowerSigma, meetsCased_eq, nearest?_append, List.append_nil, nearest?_letter] at h ⊢
    cases ha : nearest? after <;> simp_all [isCased_letter]
  have hy (before : List Char) : (lowerFrom before ['a']).count '\u03C2' = 0 := by
    simp [lowerFrom, lowerChar_letter]
  exact count_lowerFrom_lt hs hy [] (by simp [lowerSigma, meetsCased_eq, hu, hw, hc])
    (by simp [lowerSigma, meetsCased_eq, nearest?_append, hu, hw, nearest?_letter, isCased_letter])

-- A sigma that is not fixed takes another form next to a letter: in front of it, if nothing is
-- there, or else behind it.
theorem exists_infix_of_fixedFrom (h : fixedFrom [] part = false) :
    ∃ text, part <:+: text ∧ ¬ lowerFrom [] part <:+: lowerFrom [] text := by
  obtain ⟨u, w, rfl, hf⟩ := exists_of_fixedFrom h
  rw [List.append_nil] at hf
  cases hu : nearest? u.reverse with
  | none =>
    have hw : (nearest? w).any isCased = false := by
      simp only [isFixed, hu] at hf
      cases hw : nearest? w <;> simp_all
    refine ⟨'a' :: (u ++ '\u03A3' :: w), (List.suffix_cons ..).isInfix, fun hi => ?_⟩
    have hle := hi.sublist.count_le '\u03C3'
    rw [lowerFrom, if_neg (by decide), lowerChar_letter, List.singleton_append,
      List.count_cons_of_ne (by decide)] at hle
    exact Nat.not_lt.mpr hle (count_front_lt hu hw)
  | some c =>
    obtain ⟨hc, hw⟩ : isCased c = true ∧ nearest? w = none := by
      simp only [isFixed, hu] at hf
      cases hw : nearest? w <;> simp_all
    refine ⟨u ++ '\u03A3' :: w ++ ['a'], (List.prefix_append ..).isInfix, fun hi => ?_⟩
    exact Nat.not_lt.mpr (hi.sublist.count_le '\u03C2') (count_behind_lt hu hc hw)

-- A settled text is found without regard to case wherever it occurs, and no other text is.
theorem isSettled_iff (s : String) : isSettled s = true ↔
    ∀ t, contains t s = true → contains (lowercase t) (lowercase s) = true := by
  simp only [contains, occursIn_iff, toList_lowercase]
  refine ⟨fun h t ht => infix_lowerFrom h ht, fun h => ?_⟩
  by_contra hf
  obtain ⟨text, hi, hn⟩ := exists_infix_of_fixedFrom (Bool.eq_false_iff.mpr hf)
  refine hn ?_
  have ht := h (String.ofList text)
  rw [String.toList_ofList] at ht
  exact ht hi

end Text

namespace Matcher

-- Whether the pattern of a matcher is found in every text that it is a part of, without regard to
-- case, too.
def Settled : Matcher → Prop
  | contains (.str s) => Text.isSettled s = true
  | _ => True

theorem equal_caseless {v pattern : Json} (h : equal true v pattern = true) :
    equal false v pattern = true := by
  unfold equal at h ⊢
  split at h
  case _ => simpa using congrArg Text.lowercase (beq_iff_eq.mp h)
  case _ => exact h

theorem accepts_caseless {m : Matcher} (hm : m.Settled) {v : Json} (h : m.accepts true v = true) :
    m.accepts false v = true := by
  cases m with
  | exact pattern => exact equal_caseless h
  | contains pattern =>
    unfold accepts at h ⊢
    dsimp only at h ⊢
    split at h
    case _ a b => exact (Text.isSettled_iff b).mp hm a h
    case _ items pattern =>
      obtain ⟨x, hx, h⟩ := List.any_eq_true.mp h
      exact List.any_eq_true.mpr ⟨x, hx, equal_caseless h⟩
    case _ => cases h
  | regex test => exact h

end Matcher

namespace Json

variable {o : SearchOptions} {m : Matcher}

theorem tells_caseless (hm : m.Settled) {v : Json} {n : Location × Json}
    (h : (Search.start m { o with caseSensitive := true } v).tells n = true) :
    (Search.start m { o with caseSensitive := false } v).tells n = true := by
  obtain ⟨l, x⟩ := n
  rw [Search.tells_start] at h ⊢
  refine ⟨h.1, h.2.imp ?key ?value⟩
  case key =>
    rintro ⟨hk, k, hl, ha⟩
    exact ⟨hk, k, hl, Matcher.accepts_caseless hm ha⟩
  case value => exact And.imp_right (Matcher.accepts_caseless hm)

-- A search that fails does so with regard to case and without.
theorem findPaths_caseless (o : SearchOptions) (hm : m.Settled) (v : Json) :
    (∃ e, v.findPaths { o with caseSensitive := true } m = .error e ∧
      v.findPaths { o with caseSensitive := false } m = .error e) ∨
    ∃ found all, v.findPaths { o with caseSensitive := true } m = .ok found ∧
      v.findPaths { o with caseSensitive := false } m = .ok all ∧ found.Sublist all := by
  rw [findPaths_eq, findPaths_eq]
  split
  case isTrue => exact .inl ⟨_, rfl, rfl⟩
  case isFalse =>
    exact .inr ⟨_, _, rfl, rfl, (List.monotone_filter_right _ fun _ => tells_caseless hm).map _⟩

theorem exists_lost_of_not_settled (hm : ¬ m.Settled) (hk : o.keys = true ∨ o.values = true)
    (hd : 0 < o.maxDepth) : ∃ v l, findPaths { o with caseSensitive := true } m v = .ok [l] ∧
      v.findPaths { o with caseSensitive := false } m = .ok [] := by
  obtain ⟨s, rfl, hs⟩ : ∃ s, m = .contains (.str s) ∧ Text.isSettled s ≠ true := by
    unfold Matcher.Settled at hm
    split at hm
    case _ s => exact ⟨s, rfl, hm⟩
    case _ => exact absurd trivial hm
  obtain ⟨t, ht, hn⟩ : ∃ t, Text.contains t s = true ∧
      Text.contains (Text.lowercase t) (Text.lowercase s) = false := by
    simpa [Text.isSettled_iff] using hs
  have hd' : ¬ o.maxDepth = 0 := Nat.ne_of_gt hd
  rcases hk with hk | hv
  case inl =>
    refine ⟨.obj [(t, .null)], [.key t], ?_, ?_⟩ <;>
      simp [findPaths_eq, preorder, preorderMembers, Search.tells, Search.finds, Search.start,
        Matcher.accepts, hk, ht, hn, hd']
  case inr =>
    refine ⟨.arr [.str t], [.index 0], ?_, ?_⟩ <;>
      simp [findPaths_eq, preorder, preorderItems, Search.tells, Search.finds, Search.start,
        Matcher.accepts, hv, ht, hn, hd']

-- What is found with regard to case is found without it, too, and in the same order, if the pattern
-- is settled, and only then in all documents.
theorem findPaths_without_case (o : SearchOptions) (pattern : Json) (ho : o.mode ≠ .regex) :
    let on  := { o with caseSensitive := true }
    let off := { o with caseSensitive := false }
    ∃ m, Matcher.ofPattern on pattern = .ok m ∧ Matcher.ofPattern off pattern = .ok m ∧
      (m.Settled → ∀ v : Json,
        (∃ e, v.findPaths on m = .error e ∧ v.findPaths off m = .error e) ∨
        ∃ found all, v.findPaths on m = .ok found ∧ v.findPaths off m = .ok all ∧
          found.Sublist all) ∧
      (¬ m.Settled → o.keys = true ∨ o.values = true → 0 < o.maxDepth →
        ∃ v l, findPaths on m v = .ok [l] ∧ v.findPaths off m = .ok []) ∧
      (m.Settled ↔ ∀ s, o.mode = .contains → pattern = .str s → Text.isSettled s = true) := by
  intro on off
  cases hmode : o.mode with
  | exact =>
    refine ⟨.exact pattern, by simp [Matcher.ofPattern, on, hmode],
      by simp [Matcher.ofPattern, off, hmode], findPaths_caseless o, exists_lost_of_not_settled, ?_⟩
    exact iff_of_true trivial fun s h => SearchMode.noConfusion h
  | contains =>
    refine ⟨.contains pattern, by simp [Matcher.ofPattern, on, hmode],
      by simp [Matcher.ofPattern, off, hmode], findPaths_caseless o, exists_lost_of_not_settled, ?_⟩
    cases pattern <;> simp [Matcher.Settled]
  | regex => exact absurd hmode ho

-- A sigma at the end of a pattern is one at the end of a word, and in the text it may be followed by
-- a letter.
theorem findPaths_without_case_sigma :
    let o : SearchOptions := { SearchOptions.default with mode := .contains }
    let on  := { o with caseSensitive := true }
    let off := { o with caseSensitive := false }
    let final : Matcher := .contains (.str "\u0391\u03A3")
    let medial : Matcher := .contains (.str "\u0391\u03A3\u0391")
    (∃ v l, findPaths on final v = .ok [l] ∧ v.findPaths off final = .ok []) ∧
      ∀ v : Json, (∃ e, v.findPaths on medial = .error e ∧ v.findPaths off medial = .error e) ∨
        ∃ found all, v.findPaths on medial = .ok found ∧ v.findPaths off medial = .ok all ∧
          found.Sublist all := by
  intro o on off final medial
  obtain ⟨m, hm, _, _, hlost, hiff⟩ :=
    findPaths_without_case o (.str "\u0391\u03A3") (by decide)
  obtain ⟨m', hm', _, hkept, _, hiff'⟩ :=
    findPaths_without_case o (.str "\u0391\u03A3\u0391") (by decide)
  cases hm
  cases hm'
  refine ⟨hlost (fun h => ?_) (.inl rfl) (by decide), hkept (hiff'.mpr ?_)⟩
  case refine_1 =>
    have hs := hiff.mp h _ rfl rfl
    exact absurd hs (by decide +kernel)
  case refine_2 =>
    rintro s - ⟨⟩
    decide +kernel

example : Json.findPaths { SearchOptions.default with mode := .contains, caseSensitive := false }
    (.contains (.str "\u0391\u03A3")) (.arr [.str "\u0391\u03A3\u0391"]) = .ok [] := by
  rw [findPaths_eq]
  decide +kernel

end Json

end JsonQuery
