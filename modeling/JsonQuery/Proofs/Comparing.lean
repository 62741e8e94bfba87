import JsonQuery.Proofs.Embedded
import JsonQuery.Proofs.Escapes

namespace JsonQuery

open JsonQuery.Balanced

namespace Grammar

open Json

variable {text a b : List Char} {v : Json}

theorem span_parenthesis (h : ')' ∉ a) (rest : List Char) :
    (a ++ ')' :: rest).takeWhile (· != ')') = a ∧
      (a ++ ')' :: rest).dropWhile (· != ')') = ')' :: rest :=
  takeWhile_append_of_head? (fun c hc => by simpa using fun e : c = ')' => h (e ▸ hc)) (by simp)

-- A literal in a comparison is read up to the parenthesis that closes the comparison.
theorem operand?_of_read? (h : Json.read? text = some v)
    (hq : ')' ∈ text → v.kind = .string ∧ Lexeme.Plain text)
    (after : List Char) : ∃ rest, operand? (skipSpace text ++ ')' :: after) =
      some (Text.trim text, rest) ∧ skipSpace rest = ')' :: after := by
  cases quoted_cases h
  case inl hc =>
    obtain ⟨_, spaces, hspaces, ht, hread⟩ := hc
    obtain ⟨_, hread⟩ := hread (spaces ++ ')' :: after)
    refine ⟨spaces ++ ')' :: after, ?_, List.dropWhile_append_of_pos hspaces⟩
    simp only [operand?, ht, List.append_assoc, hread, consumed_append]
  case inr hc =>
    obtain ⟨hn, hread⟩ := hc
    have ht := trim_of_read? h
    have hp : ')' ∉ skipSpace text := fun hm => hn (hq ((List.dropWhile_sublist _).subset hm))
    obtain ⟨htake, hdrop⟩ := span_parenthesis hp after
    have hne : skipSpace text ≠ [] := ne_nil_of_read? (read?_skipSpace h)
    refine ⟨')' :: after, ?_, rfl⟩
    simp [operand?, hread, htake, hdrop, hne, ht]

-- A parenthesis in the text of a document stands inside of a string, so what is in front of it is
-- not complete.
theorem not_covers_of_parenthesis (h : Json.read? (a ++ ')' :: b) = some v) : ¬ Covers a [] := by
  intro hc
  have hscan (depth : Nat) : scan? depth (')' :: b) = some ⟨depth, .outside⟩ := by
    have hall := Json.neutral_of_read? h depth
    rw [scan?, Scan.run?_append] at hall
    obtain ⟨s, hs, hall⟩ := Option.bind_eq_some_iff.mp hall
    obtain ⟨_, e⟩ := hc depth s hs
    cases e
    exact hall
  -- Where nothing is open the parenthesis is passed, and where something is it closes that.
  have h0 : scan? 0 b = some ⟨0, .outside⟩ := hscan 0
  have h1 : scan? 0 b = some ⟨1, .outside⟩ := hscan 1
  cases h0.symm.trans h1

theorem mem_of_mem_trimEnd {c : Char} (h : c ∈ Text.trimEnd text) : c ∈ text := by
  obtain ⟨blanks, e, _⟩ := Text.trimEnd_append text
  rw [e]
  exact List.mem_append_left _ h

theorem mem_of_mem_trim {c : Char} (h : c ∈ Text.trim text) : c ∈ text :=
  (List.dropWhile_sublist _).subset (mem_of_mem_trimEnd h)

theorem head_of_read? (h : Json.read? text = some v) :
    ∀ c ∈ (skipSpace text).head?, c ≠ '\'' ∧ Text.isBlank c = false := by
  intro c hc
  refine ⟨?_, head?_dropWhile c (Json.trimStart_of_read? h ▸ hc)⟩
  cases written_of_read? h with
  | string ht =>
    rw [ht] at hc
    cases hc
    decide
  | other ht _ hq _ =>
    rw [ht] at hc
    cases hc
    exact hq

theorem singleQuoted?_of_head? (h : ∀ c ∈ text.head?, c ≠ '\'' ∧ Text.isBlank c = false) :
    Literal.singleQuoted? (Text.trim (Text.trimEnd text)) = none := by
  cases text with
  | nil => rfl
  | cons c text =>
    obtain ⟨hc, hb⟩ := h c rfl
    have hend (text) : Text.trimEnd (c :: text) = c :: Text.trimEnd text :=
      Text.trimEnd_append_of_endsVisibly (a := [c]) ⟨[], c, rfl, hb⟩ text
    rw [Text.trim, hend, Text.trimStart_cons hb, hend]
    simp [Literal.singleQuoted?, hc]

-- So a literal that ends in front of a parenthesis is another one.
theorem ofText_ne_of_parenthesis (h : Json.read? text = some v)
    (ht : skipSpace text = a ++ ')' :: b) (hn : ')' ∉ a) :
    Literal.ofText (Text.trimEnd a) ≠ v := by
  have hread : Json.read? (Text.trim (Text.trimEnd a)) = none := by
    by_contra hr
    obtain ⟨w, hw⟩ := Option.ne_none_iff_exists'.mp hr
    refine not_covers_of_parenthesis (ht ▸ Json.read?_skipSpace h) ?_
    exact covers_trimEnd (covers_trim ((Json.neutral_of_read? hw).covers neutral_nil))
  have hsq : Literal.singleQuoted? (Text.trim (Text.trimEnd a)) = none := by
    refine singleQuoted?_of_head? fun c hc => head_of_read? h c ?_
    rw [ht, List.head?_append, hc]
    rfl
  intro e
  simp only [Literal.ofText, hread, hsq] at e
  cases written_of_read? h with
  | other _ _ _ hw =>
    subst e
    exact hw rfl
  | @string inner spaces ps s ht' hp hs hspaces =>
    cases e
    have hm : ')' ∈ inner := by
      have hall : ')' ∈ '"' :: inner := by simp [← ht', ht]
      simpa using hall
    have hspace : ')' ∉ spaces := fun hm => Bool.noConfusion (hspaces ')' hm)
    have hpart := (Lexeme.mem_parts_of_mem hp hm).resolve_left hspace
    have hm := Lexeme.mem_characters_of_mem hs hpart
    rw [String.toList_ofList] at hm
    exact hn (mem_of_mem_trimEnd (mem_of_mem_trim hm))

-- A parenthesis in a literal that is not read in quotes ends the literal.
theorem ofText_operand?_ne (h : Json.read? text = some v) (hm : ')' ∈ text)
    (hq : ¬ (v.kind = .string ∧ Lexeme.Plain text)) {after operand rest : List Char}
    (ho : operand? (skipSpace text ++ ')' :: after) = some (operand, rest)) :
    Literal.ofText operand ≠ v := by
  have hm' : ')' ∈ skipSpace text := by
    have ht : text = text.takeWhile Lexeme.isSpace ++ skipSpace text :=
      List.takeWhile_append_dropWhile.symm
    rw [ht] at hm
    refine (List.mem_append.mp hm).resolve_left fun hs => ?_
    exact Bool.noConfusion (List.all_eq_true.mp List.all_takeWhile ')' hs)
  obtain ⟨a, b, ht, hn⟩ := List.eq_append_cons_of_mem hm'
  have hread := ((quoted_cases h).resolve_left fun hc => hq hc.1).2 (')' :: after)
  obtain ⟨htake, _⟩ := span_parenthesis hn (b ++ ')' :: after)
  simp only [operand?, hread] at ho
  split at ho
  case isTrue => cases ho
  case isFalse =>
    cases ho
    rw [ht, List.append_assoc, List.cons_append, htake]
    exact ofText_ne_of_parenthesis h ht hn

variable {k : List Char} {field : String} {op : Comparison}

-- The text of a comparison of a member with a literal.
def comparisonText (k : List Char) (op : Comparison) (text : List Char) : List Char :=
  '(' :: '@' :: '.' :: (k ++ ' ' :: (op.symbol.toList ++ ' ' :: (text ++ [')'])))

theorem comparing?_member (hk : name? k = some (field, [])) (op : Comparison) (rest : List Char) :
    comparing? ('(' :: '@' :: '.' :: (k ++ ' ' :: (op.symbol.toList ++ ' ' :: rest))) =
      some ((field, op), skipSpace rest) := by
  have hname := name?_append hk (' ' :: (op.symbol.toList ++ ' ' :: rest)) (by simp; decide)
  have hop : comparison? (skipSpace (' ' :: (op.symbol.toList ++ ' ' :: rest))) =
      some (op, ' ' :: rest) := by
    cases op <;> rfl
  have hat (text) : skipSpace ('@' :: text) = '@' :: text := rfl
  have hspace : skipSpace (' ' :: rest) = skipSpace rest := rfl
  simp only [comparing?, expect?_cons, hat, if_true, hname, hop, hspace, bind, Option.bind_some,
    pure]

theorem compare?_comparisonText (hk : name? k = some (field, [])) (h : Json.read? text = some v)
    (op : Comparison) (after : List Char) :
    compare? (comparisonText k op text ++ after) =
      (operand? (skipSpace text ++ ')' :: after)).bind fun (operand, rest) =>
        (expect? ')' (skipSpace rest)).map fun rest =>
          (.compare field op (Literal.ofText operand), rest) := by
  have ht : comparisonText k op text ++ after = '(' :: '@' :: '.' ::
      (k ++ ' ' :: (op.symbol.toList ++ ' ' :: (text ++ ')' :: after))) := by
    simp [comparisonText]
  have hspace : skipSpace (text ++ ')' :: after) = skipSpace text ++ ')' :: after :=
    skipSpace_append (ne_nil_of_read? (read?_skipSpace h)) _
  rw [compare?_eq, ht, comparing?_member hk, hspace]
  rfl

theorem predicate_of_compare? {found : Predicate × List Char} (h : compare? text = some found) :
    predicate text = .ok found := by
  unfold predicate
  rw [h]

-- A comparison with a literal that is read up to the closing parenthesis.
theorem predicate_comparisonText (hk : name? k = some (field, [])) (h : Json.read? text = some v)
    (hq : ')' ∈ text → v.kind = .string ∧ Lexeme.Plain text) (op : Comparison)
    (after : List Char) :
    predicate (comparisonText k op text ++ after) = .ok (.compare field op v, after) := by
  obtain ⟨rest, ho, hr⟩ := operand?_of_read? h hq after
  refine predicate_of_compare? ?_
  rw [compare?_comparisonText hk h, ho]
  simp only [Option.bind_some, hr, expect?_cons, if_true, Option.map_some,
    Literal.ofText_eq_of_read? (Json.read?_trim h)]

theorem compare?_of_predicate {c : Char} {after : List Char} {p : Predicate}
    (h : predicate (c :: text) = .ok (p, after)) (hc : c ≠ '{') :
    compare? (c :: text) = some (p, after) := by
  unfold predicate at h
  split at h
  case _ found hf =>
    cases h
    exact hf
  case _ =>
    split at h
    case _ e =>
      cases e
      exact absurd rfl hc
    case _ => cases h

theorem exists_predicate_of_bracket {rest : List Char} {p : Predicate} {raw : String}
    (h : bracket ('[' :: '?' :: text) = .ok (some (.selector p raw, rest))) :
    ∃ after, predicate text = .ok (p, after) := by
  obtain ⟨found, hb, h⟩ := bind_eq_ok_iff.mp h
  obtain ⟨⟨q, after⟩, hp, e⟩ := bind_eq_ok_iff.mp hb
  cases e
  have hs : Segment.selector p raw = .selector q _ := (closeBracket_eq_ok h).elim id id
  cases hs
  exact ⟨after, hp⟩

theorem exists_bracket_of_brackets {rest : List Char} {s : Segment} {found : List Segment}
    (h : brackets text = .ok (s :: found, rest)) :
    ∃ after, bracket text = .ok (some (s, after)) := by
  rw [brackets] at h
  split at h
  case _ => cases h
  case _ => cases h
  case _ s' after hb =>
    obtain ⟨_, _, e⟩ := map_eq_ok_iff.mp h
    cases e
    exact ⟨after, hb⟩

end Grammar

namespace Path

open Grammar

variable {text : List Char} {s : Segment} {p : Path}

-- The first segment of a path that starts with a bracket is what this bracket holds.
theorem exists_bracket_of_parse (ht : Text.trim ('[' :: text) = '[' :: text)
    (h : parse ('[' :: text) = .ok (s :: p)) :
    ∃ after, bracket ('[' :: text) = .ok (some (s, after)) := by
  rw [parse_eq, ht, if_neg (by simp)] at h
  split at h
  case _ => cases h
  case _ found ho =>
    obtain ⟨first, rest, others, hs, _, rfl⟩ := outline_eq_ok ho
    have hk : keyed ('[' :: text) = .ok (some (first, rest)) := hs
    obtain ⟨_, hh, hk⟩ := bind_eq_ok_iff.mp hk
    cases hh
    obtain ⟨⟨found, after⟩, hb, hk⟩ := bind_eq_ok_iff.mp hk
    dsimp only at hk
    split at hk
    case isTrue => cases hk
    case isFalse hn =>
      cases hk
      cases found with
      | nil => exact absurd rfl hn
      | cons s' found =>
        cases mapM_eq_ok_iff_forall₂.mp h with
        | cons hs _ =>
          cases hs
          exact exists_bracket_of_brackets hb

variable {v : Json}

-- A literal is compared with as it is written if it has no parenthesis or is a string with plain
-- escapes, and in no other case.
theorem ofString_comparison {k field X : String} (hk : name? k.toList = some (field, []))
    (h : Json.read? X.toList = some v) (op : Comparison) :
    let comparison := "?(@." ++ k ++ " " ++ op.symbol ++ " " ++ X ++ ")"
    ((')' ∈ X.toList → v.kind = .string ∧ Lexeme.Plain X.toList) →
      ofString ("[" ++ comparison ++ "]") = .ok [.selector (.compare field op v) comparison]) ∧
    ∀ raw, ofString ("[" ++ comparison ++ "]") = .ok [.selector (.compare field op v) raw] →
      ')' ∈ X.toList → v.kind = .string ∧ Lexeme.Plain X.toList := by
  intro comparison
  have hc : comparison.toList = '?' :: comparisonText k.toList op X.toList := by
    simp [comparison, comparisonText]
  have ht : ("[" ++ comparison ++ "]").toList =
      '[' :: (('?' :: comparisonText k.toList op X.toList) ++ [']']) := by
    simp [hc]
  rw [ofString, ht]
  refine ⟨fun hq => ?read, fun raw hp hm => ?cut⟩
  case read =>
    have hraw : String.ofList ('?' :: comparisonText k.toList op X.toList) = comparison := by
      rw [← hc, String.ofList_toList]
    exact hraw ▸ parse_bracket (bracket_of_predicate (predicate_comparisonText hk h hq op [']']))
  case cut =>
    by_contra hq
    obtain ⟨_, hb⟩ := exists_bracket_of_parse (trim_bracketed _) hp
    obtain ⟨after, hp⟩ := exists_predicate_of_bracket hb
    have hcom := compare?_of_predicate hp (by decide)
    have hcom : compare? (comparisonText k.toList op X.toList ++ [']']) = _ := hcom
    rw [compare?_comparisonText hk h] at hcom
    obtain ⟨⟨operand, rest⟩, ho, hcom⟩ := Option.bind_eq_some_iff.mp hcom
    obtain ⟨_, _, e⟩ := Option.map_eq_some_iff.mp hcom
    cases e
    exact ofText_operand?_ne h hm hq ho rfl

theorem ofString_comparison_parenthesis :
    ofString "[?(@.k != \"a\\n)\")]" =
        .ok [.selector (.compare "k" .ne (.str "a\n)")) "?(@.k != \"a\\n)\")"] ∧
      ∀ raw, ofString "[?(@.k == [\")\"])]" ≠
        .ok [.selector (.compare "k" .eq (.arr [.str ")"])) raw] := by
  have hk : name? "k".toList = some ("k", []) := by decide
  have hs : Json.read? "\"a\\n)\"".toList = some (.str "a\n)") := by decide +kernel
  have hp : Lexeme.Plain "\"a\\n)\"".toList := List.forall_mem_singleton.mpr (by decide)
  have ha : Json.read? "[\")\"]".toList = some (.arr [.str ")"]) := by decide +kernel
  refine ⟨(ofString_comparison hk hs .ne).1 fun _ => ⟨rfl, hp⟩, fun raw e => ?_⟩
  obtain ⟨hkind, _⟩ := (ofString_comparison hk ha .eq).2 raw e (by decide)
  cases hkind

end Path

end JsonQuery
