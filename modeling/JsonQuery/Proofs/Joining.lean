import Mathlib.Data.List.DropRight
import JsonQuery.Proofs.RoundTrip

namespace JsonQuery

-- Whether a segment compares to no literal that is an unclosed string.
def Segment.Closed : Segment → Prop
  | .selector _ text => Grammar.Closed (text.toList.drop 1)
  | _ => True

namespace Grammar

variable {text rest tail : List Char} {s : Segment} {o : Outline} {c : Char}

-- A rule that takes something in front of other text takes the same if even more text follows.

theorem skipSpace_append (h : skipSpace text ≠ []) (tail : List Char) :
    skipSpace (text ++ tail) = skipSpace text ++ tail := by
  rw [skipSpace] at h
  simp [skipSpace, List.dropWhile_append, h]

theorem skipSpace_ne_nil (h : skipSpace text ≠ []) : text ≠ [] := by
  rintro rfl
  exact h rfl

theorem skipSpace_skipSpace (text : List Char) : skipSpace (skipSpace text) = skipSpace text :=
  List.dropWhile_idempotent Lexeme.isSpace text

theorem Steady.append {α : Type} {rule : List Char → Option (α × List Char)} {x : α}
    (hs : Steady rule) (h : rule text = some (x, rest)) (hr : rest ≠ []) (tail : List Char) :
    rule (text ++ tail) = some (x, rest ++ tail) := by
  have ⟨taken, ht, hs⟩ := hs text x rest h
  have ⟨c, cs, hc⟩ := List.exists_cons_of_ne_nil hr
  rw [ht, List.append_assoc]
  exact hs _ (by simp [hc])

theorem integer?_minus (digits : List Char) : integer? ('-' :: digits) =
    (signed64? ('-' :: digits.takeWhile Char.isDigit)).map (·, digits.dropWhile Char.isDigit) :=
  rfl

theorem integer?_steady : Steady integer? := by
  intro text i rest h
  cases text with
  | nil => cases h
  | cons c text =>
    by_cases hm : c = '-'
    case pos =>
      rw [hm, integer?_minus] at h
      have ⟨n, hn, e⟩ := Option.map_eq_some_iff.mp h
      cases e
      refine ⟨'-' :: text.takeWhile Char.isDigit, ?_, fun rest' hr => ?_⟩
      · rw [hm, List.cons_append, List.takeWhile_append_dropWhile]
      · have ⟨ht, hd⟩ := takeWhile_steady hr
        rw [List.cons_append, integer?_minus, ht, hd, hn]
        rfl
    case neg =>
      rw [integer?_of_ne hm] at h
      have ⟨n, hn, e⟩ := Option.map_eq_some_iff.mp h
      cases e
      refine ⟨(c :: text).takeWhile Char.isDigit, List.takeWhile_append_dropWhile.symm,
        fun rest' hr => ?_⟩
      have ⟨ht, hd⟩ := takeWhile_steady hr
      cases hc : (c :: text).takeWhile Char.isDigit with
      | nil =>
        rw [hc] at hn
        cases hn
      | cons d ds =>
        have hdd : d.isDigit = true :=
          List.all_eq_true.mp List.all_takeWhile d (hc ▸ List.mem_cons_self)
        have hne : d ≠ '-' := fun e => absurd (e ▸ hdd) (by decide)
        rw [hc] at hn ht hd
        rw [List.cons_append] at ht hd ⊢
        rw [integer?_of_ne hne, ht, hd, hn]
        rfl

theorem head_of_integer? {i : Int} (h : integer? text = some (i, rest)) :
    ∃ c cs, text = c :: cs ∧ startsNumeral c = true := by
  cases text with
  | nil => cases h
  | cons c cs =>
    refine ⟨c, cs, rfl, ?_⟩
    cases hs : startsNumeral c with
    | true  => rfl
    | false =>
      rw [integer?_eq_none hs] at h
      cases h

theorem question_append (h : text ≠ [] ∨ Follows tail) :
    question (text ++ tail) = ((question text).1, (question text).2 ++ tail) := by
  cases text with
  | nil =>
    cases tail with
    | nil => rfl
    | cons c tail =>
      have hf : c = '.' ∨ c = '[' := h.elim (absurd rfl) fun h => h c rfl
      rcases hf with rfl | rfl <;> rfl
  | cons c text =>
    rw [List.cons_append]
    unfold question
    split
    case _ e =>
      cases e
      rfl
    case _ hn =>
      split
      case _ e =>
        cases e
        exact absurd rfl (hn _)
      case _ => rfl

theorem withMark_append (ht : Follows tail) (s : Segment) (text : List Char) :
    withMark s (text ++ tail) = ((withMark s text).1, (withMark s text).2 ++ tail) := by
  rw [withMark, question_append (.inr ht), withMark]
  rcases question text with ⟨_ | _, rest⟩ <;> rfl

theorem closeBracket_append {s' : Segment} (ht : Follows tail)
    (h : closeBracket s text = .ok (some (s', rest))) :
    closeBracket s (text ++ tail) = .ok (some (s', rest ++ tail)) := by
  unfold closeBracket at h
  split at h
  case _ r hr =>
    have hw : withMark s r = (s', rest) := Option.some.inj (Except.ok.inj h)
    rw [closeBracket, skipSpace_append (by simp [hr]), hr]
    simp only [List.cons_append, withMark_append ht, hw]
  case _ => cases h

-- What stands in front of a colon or a bracket is the same bound.
theorem bound_append {r : List Char} (h : skipSpace (bound text).2 = c :: r)
    (hc : startsNumeral c = false) (tail : List Char) :
    bound (text ++ tail) = ((bound text).1, (bound text).2 ++ tail) := by
  cases hi : integer? text with
  | some found =>
    obtain ⟨i, rest⟩ := found
    have hr : rest ≠ [] := skipSpace_ne_nil (by
      simp only [bound, hi] at h
      simp [h])
    simp [bound, hi, integer?_steady.append hi hr]
  | none =>
    simp only [bound, hi] at h
    have hs : skipSpace text ≠ [] := by simp [h]
    obtain ⟨d, cs, hd⟩ := List.exists_cons_of_ne_nil (skipSpace_ne_nil hs)
    have hn : startsNumeral d = false := by
      cases hs : startsNumeral d with
      | false => rfl
      | true =>
        rw [hd, skipSpace_cons (isSpace_of_startsNumeral hs)] at h
        exact absurd ((List.cons.inj h).1 ▸ hs) (by simp [hc])
    have hn' : integer? (text ++ tail) = none := by
      rw [hd]
      exact integer?_eq_none hn _
    simp [bound, hi, hn']

theorem slice_append {sl : Slice} {r : List Char} (h : slice text = .ok (some (sl, rest)))
    (hr : rest = ']' :: r) (tail : List Char) :
    slice (text ++ tail) = .ok (some (sl, rest ++ tail)) := by
  simp only [slice] at h
  split at h
  case _ r₁ h₁ =>
    split at h
    case _ => cases h
    case _ h₂ =>
      simp only [Except.ok.injEq, Option.some.injEq, Prod.mk.injEq] at h
      obtain ⟨rfl, hrest⟩ := h
      rw [hr] at hrest
      have hn : skipSpace r₁ ≠ [] := fun e => by
        rw [e] at hrest
        cases hrest
      have hb := bound_append hrest rfl tail
      have h₁' : skipSpace (bound text).2 ≠ [] := by simp [h₁]
      have h₂' : skipSpace (bound (skipSpace r₁)).2 ≠ [] := by simp [hrest]
      simp only [slice, bound_append h₁ rfl tail, skipSpace_append h₁', h₁, List.cons_append,
        skipSpace_append hn, hb, skipSpace_append h₂', hrest, hr]
      rfl
  case _ => cases h

theorem skipSpace_of_slice {sl : Slice} (h : slice text = .ok (some (sl, rest))) :
    skipSpace rest = rest := by
  simp only [slice] at h
  split at h
  case _ =>
    split at h
    case _ => cases h
    case _ =>
      cases h
      exact skipSpace_skipSpace _
  case _ => cases h

theorem head_of_slice {sl : Slice} (h : slice text = .ok (some (sl, rest)))
    (ht : skipSpace text = text) :
    ∃ c cs, text = c :: cs ∧ (startsNumeral c = true ∨ c = ':' ∨ c = ']') := by
  cases hi : integer? text with
  | some found =>
    have ⟨c, cs, e, hc⟩ := head_of_integer? hi
    exact ⟨c, cs, e, .inl hc⟩
  | none =>
    simp only [slice, bound, hi, ht] at h
    split at h
    case _ r => exact ⟨':', r, rfl, .inr (.inl rfl)⟩
    case _ => cases h

theorem bracketBody_of_quoted {name : String} (h : Quoted.read? text = some (name, rest)) :
    bracketBody text = .ok (some (.key name false, rest)) := by
  have hq := h
  unfold Quoted.read? at h
  split at h
  case _ | _ =>
    simp only [bracketBody, hq]
    rfl
  case _ => cases h

theorem bracketBody_index_append {i : Int} {r : List Char} (hi : integer? text = some (i, rest))
    (hr : skipSpace rest = ']' :: r) (tail : List Char) :
    bracketBody (text ++ tail) = .ok (some (.index i false, rest ++ tail)) := by
  have ⟨c, cs, e, hc⟩ := head_of_integer? hi
  have hb : (bound text).2 = rest := by rw [bound, hi]
  have hn : skipSpace rest ≠ [] := by simp [hr]
  have hs : slice (text ++ tail) = .ok none := by
    simp only [slice, bound_append (hb ▸ hr) rfl tail, hb, skipSpace_append hn, hr]
    rfl
  have hi' := integer?_steady.append hi (skipSpace_ne_nil hn) tail
  rw [e, List.cons_append] at hs hi' ⊢
  rw [bracketBody_eq (.inl hc), hs, hi']
  rfl

theorem bracketBody_slice_append {sl : Slice} {r : List Char}
    (hs : slice text = .ok (some (sl, rest))) (ht : skipSpace text = text)
    (hr : rest = ']' :: r) (tail : List Char) :
    bracketBody (text ++ tail) = .ok (some (.slice sl, rest ++ tail)) := by
  have ⟨c, cs, e, hc⟩ := head_of_slice hs ht
  have hs' := slice_append hs hr tail
  rw [e, List.cons_append] at hs' ⊢
  rw [bracketBody_eq hc, hs']
  rfl

theorem bracketBody_selector_append {p : Predicate} {raw : String}
    (h : bracketBody text = .ok (some (.selector p raw, rest)))
    (hc : (Segment.selector p raw).Closed) (tail : List Char) :
    bracketBody (text ++ tail) = .ok (some (.selector p raw, rest ++ tail)) := by
  obtain ⟨_, _, ht, _⟩ := predicate_of_bracketBody h
  obtain ⟨taken, hraw, hs⟩ := bracketBody_selector h
  have hcl : Closed taken := by simpa [Segment.Closed, hraw] using hc
  rw [ht, List.append_assoc]
  exact hs hcl _

-- What stands between two brackets is read again if more text follows the closing one.
theorem bracketBody_append {r : List Char} (h : bracketBody text = .ok (some (s, rest)))
    (ht : skipSpace text = text) (hr : skipSpace rest = ']' :: r) (hc : s.Closed)
    (tail : List Char) : bracketBody (text ++ tail) = .ok (some (s, rest ++ tail)) := by
  have hb := h
  unfold bracketBody at h
  split at h
  case _ text =>
    have ⟨_, _, e⟩ := bind_eq_ok_iff.mp h
    cases e
    exact bracketBody_selector_append hb hc tail
  case _ =>
    cases h
    rfl
  case _ =>
    split at h
    case _ name after hread =>
      cases h
      have ⟨taken, ht, hs⟩ := Quoted.read?_append hread
      rw [ht, List.append_assoc]
      exact bracketBody_of_quoted (hs _)
    case _ =>
      have ⟨found, hs, h⟩ := bind_eq_ok_iff.mp h
      split at h
      case _ sl after =>
        cases h
        exact bracketBody_slice_append hs ht (skipSpace_of_slice hs ▸ hr) tail
      case _ =>
        have ⟨⟨i, after⟩, hi, e⟩ := Option.map_eq_some_iff.mp (Except.ok.inj h)
        cases e
        exact bracketBody_index_append hi hr tail

theorem head_of_closeBracket {s' : Segment} (h : closeBracket s text = .ok (some (s', rest))) :
    ∃ r, skipSpace text = ']' :: r := by
  unfold closeBracket at h
  split at h
  case _ r hr => exact ⟨r, hr⟩
  case _ => cases h

theorem closed_makeOptional : s.makeOptional.Closed ↔ s.Closed := by
  cases s <;> rfl

theorem bracket_append (ht : Follows tail) (h : bracket text = .ok (some (s, rest)))
    (hc : s.Closed) : bracket (text ++ tail) = .ok (some (s, rest ++ tail)) := by
  unfold bracket at h
  split at h
  case _ r =>
    obtain ⟨found, hb, h⟩ := bind_eq_ok_iff.mp h
    split at h
    case _ s' after =>
      obtain ⟨_, hr⟩ := head_of_closeBracket h
      have hc' : s'.Closed := by
        rcases closeBracket_eq_ok h with rfl | rfl
        case inl => exact hc
        case inr => exact closed_makeOptional.mp hc
      have hn : skipSpace r ≠ [] := fun e => by
        rw [e] at hb
        cases hb
      have hb' := bracketBody_append hb (skipSpace_skipSpace r) hr hc' tail
      rw [List.cons_append]
      simp only [bracket, skipSpace_append hn, hb', bind, Except.bind, closeBracket_append ht h]
    case _ =>
      obtain ⟨r', hr⟩ := head_of_closeBracket h
      rw [skipSpace_skipSpace] at hr
      have hb' : bracketBody (skipSpace (r ++ tail)) = .ok none := by
        rw [skipSpace_append (by simp [hr]), hr]
        exact bracketBody_nil _
      have h' := closeBracket_append ht h
      rw [← skipSpace_append (by simp [hr])] at h'
      rw [List.cons_append]
      simp only [bracket, hb', bind, Except.bind, h']
  case _ => cases h

theorem brackets_append {found : List Segment} (ht : Follows tail)
    (h : brackets text = .ok (found, rest)) (hc : ∀ s ∈ found, s.Closed) :
    brackets (text ++ tail) =
      (brackets (rest ++ tail)).map fun (others, after) => (found ++ others, after) := by
  fun_induction brackets text generalizing found rest with
  | case1 => cases h
  | case2 text _ =>
    cases h
    cases brackets (text ++ tail) <;> rfl
  | case3 text s r hb _ ih =>
    obtain ⟨⟨others, after⟩, hr, e⟩ := map_eq_ok_iff.mp h
    cases e
    obtain ⟨hs, hc⟩ := List.forall_mem_cons.mp hc
    rw [brackets_of_bracket (bracket_append ht hb hs), ih hr hc]
    cases brackets (rest ++ tail) <;> rfl

theorem isWordChar_append (ht : Follows tail) (hr : ∀ c ∈ rest.head?, isWordChar c = false) :
    ∀ c ∈ (rest ++ tail).head?, isWordChar c = false := by
  cases rest with
  | nil       => exact isWordChar_of_follows ht
  | cons c cs => exact hr

theorem head_append (ht : Follows tail) (h : head text = .ok (some (o, rest))) :
    head (text ++ tail) = .ok (some (o, rest ++ tail)) := by
  unfold head at h
  split at h
  case _ name r hq =>
    obtain ⟨taken, e, hs⟩ := Quoted.read?_append hq
    have hq' : Quoted.read? (text ++ tail) = some (name, r ++ tail) := by
      rw [e, List.append_assoc]
      exact hs _
    cases h
    simp only [head, hq', withMark_append ht]
    rfl
  case _ =>
    split at h
    case _ => cases h
    case _ word r hw =>
      obtain ⟨e, hn, hwc, hr⟩ := word?_eq_some_iff.mp hw
      have hw' : word? (text ++ tail) = some (word, r ++ tail) :=
        word?_eq_some_iff.mpr ⟨by rw [e, List.append_assoc], hn, hwc, isWordChar_append ht hr⟩
      split at h
      case isTrue hname =>
        split at h
        case _ r =>
          split at h
          case _ argument after hcut =>
            obtain ⟨c, after', e, _⟩ := Balanced.head_of_cut? hcut
            cases h
            rw [e] at hcut ⊢
            have hcut' := Balanced.cut?_append hcut (after' ++ tail)
            rw [← List.cons_append, ← List.append_assoc, Balanced.append_of_cut? hcut] at hcut'
            exact head_argument hw' hname hcut'
          case _ => cases h
        case _ hp =>
          cases h
          cases rest with
          | nil => exact head_name hw' hname ht
          | cons c cs =>
            have hc : c ≠ '(' := fun e => hp cs (e ▸ rfl)
            simp [head, read?_of_word? hw', hw', hname, hc]
      case isFalse hname =>
        cases h
        rw [head_key hw' (by simpa using hname), question_append (.inr ht)]
        rfl

-- A field that is followed by a comma or by the closing brace ends there.
theorem field?_append {f : String × Option (List Char)} (h : field? text = some (f, rest))
    (hr : ∃ c r, skipSpace rest = c :: r ∧ (c = ',' ∨ c = '}')) (tail : List Char) :
    field? (text ++ tail) = some (f, rest ++ tail) := by
  obtain ⟨c, r, hr, hc⟩ := hr
  obtain ⟨⟨name, after⟩, hn, h⟩ := Option.map_eq_some_iff.mp h
  dsimp only at h
  have hs : skipSpace after ≠ [] := fun e => by
    rw [e] at h
    cases h
    cases hr
  have hn' := name?_steady.append hn (skipSpace_ne_nil hs) tail
  unfold field?
  rw [hn', Option.map_some]
  dsimp only
  rw [skipSpace_append hs]
  split at h
  case _ after ha =>
    rw [ha, List.cons_append]
    split at h
    case _ value after' hv =>
      cases h
      simp only [fieldValue?] at hv
      split at hv
      case isTrue => cases hv
      case isFalse hne =>
        cases hcut : Balanced.cut? [',', '}'] 0 none (skipSpace after) with
        | none =>
          rw [hcut] at hv
          cases hv
          cases hr
        | some found =>
          obtain ⟨before, behind⟩ := found
          obtain ⟨d, ds, e, _⟩ := Balanced.head_of_cut? hcut
          rw [hcut] at hv hne
          cases hv
          have ht := Balanced.append_of_cut? hcut
          rw [e] at hcut
          have hcut' := Balanced.cut?_append hcut (ds ++ tail)
          have hs' : skipSpace after ≠ [] := by simp [← ht, e]
          rw [← List.cons_append, ← List.append_assoc, ← e, ht, ← skipSpace_append hs'] at hcut'
          simp only [fieldValue?, hcut', Option.getD_some] at hne ⊢
          simp [hne]
    case _ =>
      cases h
      rw [ha, skipSpace_cons (c := ':') rfl] at hr
      rcases hc with rfl | rfl <;> cases hr
  case _ hp =>
    cases h
    obtain ⟨d, ds, e⟩ := List.exists_cons_of_ne_nil hs
    have hd : d ≠ ':' := fun hd => hp ds (hd ▸ e)
    simp [e, hd]

theorem expect?_cons (c d : Char) (text : List Char) :
    expect? c (d :: text) = if d = c then some text else none :=
  rfl

theorem skipSpace_of_comma? (h : comma? text = some rest) :
    ∃ r, skipSpace text = ',' :: r ∧ rest = skipSpace r := by
  have ⟨r, hr, e⟩ := Option.map_eq_some_iff.mp h
  exact ⟨r, expect?_eq_some hr, e.symm⟩

theorem comma?_append (h : comma? text = some rest) (hr : rest ≠ []) (tail : List Char) :
    comma? (text ++ tail) = some (rest ++ tail) := by
  have ⟨r, ht, e⟩ := skipSpace_of_comma? h
  subst e
  rw [comma?, skipSpace_append (by simp [ht]), ht, List.cons_append, expect?_cons, if_pos rfl,
    Option.map_some, skipSpace_append hr]

theorem comma?_eq_none {r : List Char} (h : skipSpace text = '}' :: r) (tail : List Char) :
    comma? (text ++ tail) = none := by
  rw [comma?, skipSpace_append (by simp [h]), h]
  rfl

theorem moreFields_of_field? {f : String × Option (List Char)} {after : List Char}
    (hc : comma? text = some rest) (hf : field? rest = some (f, after)) :
    moreFields text = (f :: (moreFields after).1, (moreFields after).2) := by
  rw [moreFields]
  split
  case _ he => cases he.symm.trans hc
  case _ he =>
    cases he.symm.trans hc
    split
    case _ he => cases he.symm.trans hf
    case _ he =>
      cases he.symm.trans hf
      rfl

theorem moreFields_of_none (hc : comma? text = none) : moreFields text = ([], text) := by
  rw [moreFields]
  split
  case _ => rfl
  case _ he => cases he.symm.trans hc

-- The text behind the fields starts with a comma or with what the last field left over.
theorem skipSpace_moreFields {r : List Char} (h : skipSpace (moreFields text).2 = '}' :: r) :
    ∃ c r', skipSpace text = c :: r' ∧ (c = ',' ∨ c = '}') := by
  cases hc : comma? text with
  | none =>
    rw [moreFields_of_none hc] at h
    exact ⟨'}', r, h, .inr rfl⟩
  | some rest =>
    have ⟨r', ht, _⟩ := skipSpace_of_comma? hc
    exact ⟨',', r', ht, .inl rfl⟩

theorem moreFields_append {r : List Char} (h : skipSpace (moreFields text).2 = '}' :: r)
    (tail : List Char) :
    moreFields (text ++ tail) = ((moreFields text).1, (moreFields text).2 ++ tail) := by
  fun_induction moreFields text with
  | case1 => exact moreFields_of_none (comma?_eq_none h tail)
  | case2 text rest hc =>
    obtain ⟨r', ht, _⟩ := skipSpace_of_comma? hc
    cases ht.symm.trans h
  | case3 text rest hc f after hf _ more after' he ih =>
    have hn : rest ≠ [] := fun e => by
      subst e
      cases hf
    have hm : skipSpace (moreFields after).2 = '}' :: r := by
      rw [he]
      exact h
    rw [he] at ih
    have hf' := field?_append hf (skipSpace_moreFields hm) tail
    rw [moreFields_of_field? (comma?_append hc hn tail) hf', ih h]

theorem fields_append {r : List Char} (h : skipSpace (fields text).2 = '}' :: r)
    (hn : field? text ≠ none) (tail : List Char) :
    fields (text ++ tail) = ((fields text).1, (fields text).2 ++ tail) := by
  have ⟨⟨f, rest⟩, hf⟩ := Option.ne_none_iff_exists'.mp hn
  simp only [fields, hf] at h ⊢
  simp only [field?_append hf (skipSpace_moreFields h), moreFields_append h]

theorem field?_eq_none (rest : List Char) : field? ('}' :: rest) = none := by
  have hw : word? ('}' :: rest) = none := rfl
  simp [field?, name?, Quoted.read?_eq_none, hw]

-- A construct ends at its closing brace.
theorem construct_append (h : construct text = .ok (o, rest)) (tail : List Char) :
    construct (text ++ tail) = .ok (o, rest ++ tail) := by
  simp only [construct] at h
  split at h
  case _ r hr =>
    cases h
    have hs : skipSpace text ≠ [] := fun e => by
      rw [e] at hr
      cases hr
    have hfields : fields (skipSpace text ++ tail) =
        ((fields (skipSpace text)).1, (fields (skipSpace text)).2 ++ tail) := by
      cases hf : field? (skipSpace text) with
      | some found => exact fields_append hr (by simp [hf]) tail
      | none =>
        simp only [fields, hf, skipSpace_skipSpace] at hr ⊢
        rw [hr, List.cons_append, field?_eq_none]
    have hrest : skipSpace (fields (skipSpace text)).2 ≠ [] := by simp [hr]
    rw [construct, skipSpace_append hs, hfields]
    simp only [skipSpace_append hrest, hr]
    rfl
  case _ => cases h

-- The segments that were read so far, and those that follow in the rest of the text.
def thenMore : List Outline × List Char → Except SyntaxError (List Outline × List Char)
  | (found, rest) => (more rest).map fun (others, rest) => (found ++ others, rest)

-- An expression has ended when nothing is left.
def ended : List Outline × List Char → Except SyntaxError (List Outline)
  | (found, rest) => if rest.isEmpty then .ok found else .error (.leftOver rest)

theorem thenMore_thenMore (found others : List Outline) (rest : List Char) :
    (thenMore (others, rest)).map (fun (others, rest) => (found ++ others, rest)) =
      thenMore (found ++ others, rest) := by
  simp only [thenMore]
  cases more rest <;> simp [Except.map]

theorem more_eq_thenMore {r : Except SyntaxError (List Outline × List Char)}
    (h : segment (dropDot text) = r.map some) : more text = r >>= thenMore := by
  cases r with
  | ok found => exact more_of_segment h
  | error e =>
    rw [more]
    split
    case _ he =>
      cases he.symm.trans h
      rfl
    case _ he => cases he.symm.trans h
    case _ he => cases he.symm.trans h

theorem outline_eq_thenMore {r : Except SyntaxError (List Outline × List Char)}
    (h : segment (dropDot text) = r.map some) : outline text = r >>= thenMore >>= ended := by
  cases r with
  | error e => simp [outline, h, Except.map, bind, Except.bind]
  | ok found =>
    simp only [outline, h, Except.map, bind, Except.bind, thenMore]
    cases more found.2 <;> rfl

theorem dropDot_append (h : text ≠ []) (tail : List Char) :
    dropDot (text ++ tail) = dropDot text ++ tail := by
  have ⟨c, cs, e⟩ := List.exists_cons_of_ne_nil h
  subst e
  by_cases hc : c = '.'
  case pos => simp [dropDot, hc]
  case neg => simp [dropDot, hc]

theorem bracket_eq_none (h : text.head? ≠ some '[') : bracket text = .ok none := by
  unfold bracket
  split
  case _ => exact absurd rfl h
  case _ => rfl

-- Brackets continue a path like all other segments.
theorem more_eq_brackets (text : List Char) : more text =
    brackets text >>= fun (found, rest) => thenMore (found.map .ready, rest) := by
  have hnil : thenMore ([], text) = more text := by
    simp only [thenMore]
    cases more text <;> rfl
  by_cases hb : text.head? = some '['
  case neg =>
    rw [brackets_of_none (bracket_eq_none hb)]
    exact hnil.symm
  case pos =>
    obtain ⟨r, e⟩ := List.head?_eq_some_iff.mp hb
    subst e
    have hh : head ('[' :: r) = .ok none := rfl
    have hs : segment (dropDot ('[' :: r)) = keyed ('[' :: r) := rfl
    cases hbs : brackets ('[' :: r) with
    | error e =>
      have hk : keyed ('[' :: r) = (Except.error e).map some := by
        simp [keyed, hh, hbs, bind, Except.bind, Except.map]
      exact more_eq_thenMore (hs.trans hk)
    | ok found =>
      obtain ⟨found, rest⟩ := found
      cases found with
      | nil =>
        rw [(length_of_brackets hbs).2.1 rfl]
        exact hnil.symm
      | cons s found =>
        exact more_eq_thenMore (r := .ok _) (hs.trans (keyed_of_brackets hh hbs))

-- Whether the segments that need no further reading compare to no literal that is an unclosed string.
def AllClosed (found : List Outline) : Prop := ∀ s, .ready s ∈ found → s.Closed

variable {found : List Outline}

theorem AllClosed.append {others : List Outline} (h : AllClosed (found ++ others)) :
    AllClosed found ∧ AllClosed others :=
  ⟨fun s hs => h s (List.mem_append_left _ hs), fun s hs => h s (List.mem_append_right _ hs)⟩

theorem allClosed_ready {found : List Segment} (h : AllClosed (found.map .ready)) :
    ∀ s ∈ found, s.Closed := fun s hs => h s (List.mem_map_of_mem hs)

theorem keyed_append (ht : Follows tail) (h : keyed text = .ok (some (found, rest)))
    (hc : AllClosed found) : keyed (text ++ tail) =
      ((brackets (rest ++ tail)).map fun (more, after) => (found ++ more.map .ready, after)).map
        some := by
  obtain ⟨first, hf, h⟩ := bind_eq_ok_iff.mp h
  cases first with
  | none =>
    obtain ⟨⟨more, after⟩, hb, h⟩ := bind_eq_ok_iff.mp h
    dsimp only at h
    split at h
    case isTrue => cases h
    case isFalse hn =>
      cases h
      have hn : more ≠ [] := by simpa using hn
      have hb' := brackets_append ht hb (allClosed_ready hc)
      obtain ⟨r, e⟩ : ∃ r, text = '[' :: r := by
        refine List.head?_eq_some_iff.mp (Decidable.byContradiction fun hb' => hn ?_)
        cases hb.symm.trans (brackets_of_none (bracket_eq_none hb'))
        rfl
      have hh : head (text ++ tail) = .ok none := by
        rw [e]
        rfl
      simp only [keyed, hh, hb', bind, Except.bind]
      cases brackets (rest ++ tail) <;> simp [Except.map, hn, pure, Except.pure]
  | some first =>
    obtain ⟨⟨more, after⟩, hb, h⟩ := bind_eq_ok_iff.mp h
    dsimp only at h
    split at h
    case isTrue => cases h
    case isFalse =>
      cases h
      have hb' := brackets_append ht hb (allClosed_ready (AllClosed.append hc).2)
      simp only [keyed, head_append ht hf, hb', bind, Except.bind]
      cases brackets (rest ++ tail) <;> simp [Except.map, pure, Except.pure]

theorem segment_nil : segment [] = .ok none := by
  have hh : head [] = .ok none := rfl
  simp [segment, keyed, hh, brackets_nil, bind, Except.bind, pure, Except.pure]

theorem segment_append (ht : Follows tail) (h : segment text = .ok (some (found, rest)))
    (hc : AllClosed found) : ∃ r, segment (text ++ tail) = r.map some ∧
      r >>= thenMore = thenMore (found, rest ++ tail) := by
  unfold segment at h
  split at h
  case _ r =>
    have ⟨⟨o, after⟩, hcon, e⟩ := map_eq_ok_iff.mp h
    cases e
    refine ⟨.ok ([o], rest ++ tail), ?_, rfl⟩
    simp only [List.cons_append, segment, construct_append hcon]
    rfl
  case _ r =>
    cases h
    refine ⟨.ok ([.ready (withMark (.children false) r).1],
      (withMark (.children false) r).2 ++ tail), ?_, rfl⟩
    simp only [List.cons_append, segment, withMark_append ht]
    rfl
  case _ hn hn' =>
    have hk := keyed_append ht h hc
    cases text with
    | nil => cases (show segment [] = .ok none from segment_nil).symm.trans h
    | cons c cs =>
      have hc : c ≠ '{' := fun e => hn cs (e ▸ rfl)
      have hc' : c ≠ '*' := fun e => hn' cs (e ▸ rfl)
      refine ⟨_, (segment_eq_keyed hc hc' _).trans hk, ?_⟩
      rw [thenMore, more_eq_brackets]
      cases brackets (rest ++ tail) with
      | error e => rfl
      | ok others => exact (thenMore_thenMore _ _ _).symm

-- What follows the segments of a text is read as if it stood alone.
theorem more_append (ht : Follows tail) (h : more text = .ok (found, [])) (hc : AllClosed found) :
    more (text ++ tail) = thenMore (found, tail) := by
  fun_induction more text generalizing found with
  | case1 => cases h
  | case2 text _ =>
    cases h
    simp only [List.nil_append, thenMore]
    cases more tail <;> rfl
  | case3 text first r hs _ ih =>
    have ⟨⟨others, _⟩, hr, e⟩ := map_eq_ok_iff.mp h
    cases e
    have ⟨hc, hc'⟩ := AllClosed.append hc
    have hn : text ≠ [] := fun e => by
      subst e
      cases segment_nil.symm.trans hs
    have ⟨r', hs', hm⟩ := segment_append ht hs hc
    rw [← dropDot_append hn] at hs'
    rw [more_eq_thenMore hs', hm, thenMore, ih hr hc']
    exact thenMore_thenMore _ _ _

theorem outline_eq_ok (h : outline text = .ok found) : ∃ first rest others,
    segment (dropDot text) = .ok (some (first, rest)) ∧ more rest = .ok (others, []) ∧
      found = first ++ others := by
  have ⟨first, hs, h⟩ := bind_eq_ok_iff.mp h
  split at h
  case _ => cases h
  case _ first r =>
    have ⟨⟨others, rest⟩, hr, h⟩ := bind_eq_ok_iff.mp h
    dsimp only at h
    split at h
    case isFalse => cases h
    case isTrue he =>
      cases h
      have he : rest = [] := by simpa using he
      exact ⟨first, r, others, hs, he ▸ hr, rfl⟩

theorem outline_append (ht : Follows tail) (h : outline text = .ok found) (hc : AllClosed found) :
    outline (text ++ tail) = thenMore (found, tail) >>= ended := by
  have ⟨first, r, others, hs, hr, e⟩ := outline_eq_ok h
  subst e
  have ⟨hc, hc'⟩ := AllClosed.append hc
  have hn : text ≠ [] := fun e => by
    subst e
    cases segment_nil.symm.trans hs
  have ⟨r', hs', hm⟩ := segment_append ht hs hc
  rw [← dropDot_append hn] at hs'
  rw [outline_eq_thenMore hs', hm, thenMore, more_append ht hr hc']
  exact congrArg (· >>= ended) (thenMore_thenMore _ _ _)

-- An expression behind a dot is the rest of another one.
theorem more_of_outline {text' : List Char} (h : outline text = .ok found)
    (hd : dropDot text' = dropDot text) : more text' = .ok (found, []) := by
  have ⟨first, r, others, hs, hr, e⟩ := outline_eq_ok h
  rw [more_of_segment (hd ▸ hs), hr, e]
  rfl

theorem outline_join {others : List Outline} {text' : List Char} (h : outline text = .ok found)
    (hc : AllClosed found) (h' : outline text' = .ok others) (hd : dropDot text' = text') :
    outline (text ++ '.' :: text') = .ok (found ++ others) := by
  have ht : Follows ('.' :: text') := by simp [Follows]
  have hm : more ('.' :: text') = .ok (others, []) := more_of_outline h' hd.symm
  rw [outline_append ht h hc, thenMore, hm]
  rfl

theorem toList_renderRest_append (p q : Path) : (Path.renderRest (p ++ q)).toList =
    (Path.renderRest p).toList ++ (Path.renderRest q).toList := by
  induction p with
  | nil => simp [Path.renderRest]
  | cons s p ih => simp [Path.renderRest, ih]

theorem mem_of_tells {p : Path} (h : Tells found p) (hs : .ready s ∈ found) : s ∈ p := by
  induction found generalizing p with
  | nil => cases hs
  | cons o rest ih =>
    rw [Tells, List.mapM_cons] at h
    have ⟨t, ht, h⟩ := bind_eq_ok_iff.mp h
    have ⟨q, hq, h⟩ := bind_eq_ok_iff.mp h
    cases h
    cases List.mem_cons.mp hs with
    | inl e =>
      subst e
      cases ht
      exact List.mem_cons_self
    | inr hs => exact List.mem_cons_of_mem _ (ih hq hs)

end Grammar

namespace Text

variable {text : List Char}

-- A text without white space around it starts and ends with something else.
theorem starts_of_trim (h : trim text = text) (hn : text ≠ []) :
    ∃ c cs, text = c :: cs ∧ isBlank c = false := by
  have ⟨c, cs, e⟩ := List.exists_cons_of_ne_nil hn
  refine ⟨c, cs, e, Bool.eq_false_iff.mpr fun hc => ?_⟩
  have ht : trimStart text = trimStart cs := by simp [e, trimStart, hc]
  have hl : text.length ≤ cs.length := calc
    text.length = (trimEnd (trimStart text)).length := congrArg List.length h.symm
    _ ≤ (trimStart text).length := length_trimEnd_le _
    _ = (trimStart cs).length := congrArg List.length ht
    _ ≤ cs.length := length_trimStart_le cs
  rw [e, List.length_cons] at hl
  omega

theorem endsVisibly_of_trim (h : trim text = text) (hn : text ≠ []) :
    Grammar.EndsVisibly text := by
  obtain ⟨c, cs, e, hc⟩ := starts_of_trim h hn
  have he : trimEnd text = text := by
    rw [trim, e, trimStart_cons hc, ← e] at h
    exact h
  cases List.eq_nil_or_concat text with
  | inl e => exact absurd e hn
  | inr e =>
    obtain ⟨ds, d, e⟩ := e
    rw [List.concat_eq_append] at e
    refine ⟨ds, d, e, Bool.eq_false_iff.mpr fun hd => ?_⟩
    have hl : text.length ≤ ds.length := calc
      text.length = (trimEnd (ds ++ [d])).length := by rw [← e, he]
      _ = (trimEnd ds).length := by simp [trimEnd, hd]
      _ ≤ ds.length := length_trimEnd_le ds
    rw [e, List.length_append, List.length_singleton] at hl
    omega

end Text

namespace Path

theorem outline_of_parse {text : List Char} {p : Path} (h : parse text = .ok p)
    (ht : Text.trim text = text) (hn : text ≠ []) (hd : text ≠ ['.']) :
    ∃ found, Grammar.outline text = .ok found ∧ Grammar.Tells found p := by
  rw [parse_eq, ht, if_neg (by simp [hn, hd])] at h
  split at h
  case _ => cases h
  case _ found ho => exact ⟨found, ho, h⟩

theorem parse_of_outline {text : List Char} {p : Path} {found : List Outline}
    (h : Grammar.outline text = .ok found) (hf : Grammar.Tells found p)
    (ht : Text.trim text = text) (hn : text ≠ []) (hd : text ≠ ['.']) : parse text = .ok p := by
  rw [parse_eq, ht, if_neg (by simp [hn, hd]), h]
  exact hf

-- Expressions joined by a dot are the paths of both, one after the other, unless the first one
-- compares to an unclosed string.
theorem ofString_join {first second : String} {p q : Path} (hp : ofString first = .ok p)
    (hq : ofString second = .ok q) (hf : first ≠ "" ∧ first ≠ ".")
    (hft : Text.trim first.toList = first.toList) (hs : second ≠ "")
    (hst : Text.trim second.toList = second.toList) (hd : second.toList.head? ≠ some '.')
    (hc : ∀ s ∈ p, s.Closed) : ofString (first ++ "." ++ second) = .ok (p ++ q) := by
  have hfn : first.toList ≠ [] := by simpa using hf.1
  have hsn : second.toList ≠ [] := by simpa using hs
  have hfd : first.toList ≠ ['.'] := fun e => hf.2 (String.toList_inj.mp e)
  have hsd : second.toList ≠ ['.'] := fun e => hd (by rw [e]; rfl)
  obtain ⟨found, ho, ht⟩ := outline_of_parse hp hft hfn hfd
  obtain ⟨others, ho', ht'⟩ := outline_of_parse hq hst hsn hsd
  have hdot : Grammar.dropDot second.toList = second.toList := by
    obtain ⟨c, cs, e⟩ := List.exists_cons_of_ne_nil hsn
    have hc : c ≠ '.' := fun hc => hd (by rw [e, hc]; rfl)
    simp [e, Grammar.dropDot, hc]
  have hjoin := Grammar.outline_join ho (fun s h => hc s (Grammar.mem_of_tells ht h)) ho' hdot
  have htext : (first ++ "." ++ second).toList = first.toList ++ '.' :: second.toList := by simp
  obtain ⟨c, cs, e, hblank⟩ := Text.starts_of_trim hft hfn
  have hends : Grammar.EndsVisibly (first.toList ++ '.' :: second.toList) := by
    have he := Grammar.endsVisibly_append (Text.endsVisibly_of_trim hst hsn) (first.toList ++ ['.'])
    rwa [List.append_assoc] at he
  have htrim : Text.trim (first.toList ++ '.' :: second.toList) =
      first.toList ++ '.' :: second.toList :=
    Text.trim_of_visible (by rw [e]; rfl) hblank hends
  have hlone : first.toList ++ '.' :: second.toList ≠ ['.'] := by simp [e]
  rw [ofString, htext]
  exact parse_of_outline hjoin (ht.append ht') htrim (by simp) hlone

section

open Grammar

-- A literal with an apostrophe in front of a quoted key.
theorem ofString_join_apostrophe :
    let p : Path :=
      [.selector (.compare "x" .eq (Literal.ofText "it's".toList)) "?(@.x == it's)"]
    let q : Path := [.key "y z" false, .index (-1) true]
    ofString "[?(@.x == it's)]" = .ok p ∧ ofString "'y z'[-1]?" = .ok q ∧
      ofString ("[?(@.x == it's)]" ++ "." ++ "'y z'[-1]?") = .ok (p ++ q) := by
  intro p q
  have hp : ofString "[?(@.x == it's)]" = .ok p := by
    have hb : bracket "[?(@.x == it's)]".toList = .ok (some (p.head (List.cons_ne_nil _ _), [])) :=
      rfl
    have hs := brackets_of_bracket hb
    rw [brackets_nil] at hs
    have hh : head "[?(@.x == it's)]".toList = .ok none := rfl
    have hk : segment (dropDot "[?(@.x == it's)]".toList) = keyed "[?(@.x == it's)]".toList := rfl
    have ht : Text.trim "[?(@.x == it's)]".toList = "[?(@.x == it's)]".toList := by decide
    exact parse_of_segment ht (by simp) (hk.trans (keyed_of_brackets hh hs)) (tells_ready p)
  have hq : ofString "'y z'[-1]?" = .ok q := by
    have hb : bracket "[-1]?".toList = .ok (some (.index (-1) true, [])) := rfl
    have hs := brackets_of_bracket hb
    rw [brackets_nil] at hs
    have hh : head "'y z'[-1]?".toList = .ok (some (.ready (.key "y z" false), "[-1]?".toList)) :=
      rfl
    have hk : segment (dropDot "'y z'[-1]?".toList) = keyed "'y z'[-1]?".toList := rfl
    have ht : Text.trim "'y z'[-1]?".toList = "'y z'[-1]?".toList := by decide
    exact parse_of_segment ht (by simp) (hk.trans (keyed_of_head hh hs)) (tells_ready q)
  have hc : ∀ s ∈ p, s.Closed := by
    refine List.forall_mem_singleton.mpr ?_
    have hcom : compare? ("?(@.x == it's)".toList.drop 1) =
        some (.compare "x" .eq (Literal.ofText "it's".toList), []) := rfl
    have hcmp : comparing? ("?(@.x == it's)".toList.drop 1) = some (("x", .eq), "it's)".toList) :=
      rfl
    refine closed_of_compare? hcom fun x rest h hn => ?_
    cases h.symm.trans hcmp
    decide
  exact ⟨hp, hq, ofString_join hp hq (by decide) (by decide) (by decide) (by decide) (by decide) hc⟩

end

end Path

end JsonQuery
