import JsonQuery.Proofs.Delimiting

namespace JsonQuery

open JsonQuery.Balanced

namespace Lexeme

variable {text inner rest cs : List Char} {ps : List Part}

-- The characters with a backslash in front.
def escapes : List Char → List Char
  | '\\' :: e :: rest => e :: escapes rest
  | _ :: rest => escapes rest
  | [] => []

theorem escapes_cons {c : Char} (hc : c ≠ '\\') (text : List Char) :
    escapes (c :: text) = escapes text :=
  escapes.eq_2 c text fun _ _ e => absurd e hc

theorem ne_backslash_of_isSpace {c : Char} (h : isSpace c = true) : c ≠ '\\' := by
  rintro rfl
  cases h

theorem escapes_of_isSpace {spaces : List Char} (h : ∀ c ∈ spaces, isSpace c = true) :
    escapes spaces = [] := by
  induction spaces with
  | nil => rfl
  | cons c spaces ih =>
    obtain ⟨hc, h⟩ := List.forall_mem_cons.mp h
    rw [escapes_cons (ne_backslash_of_isSpace hc), ih h]

theorem escapes_skipSpace (text : List Char) :
    escapes (Grammar.skipSpace text) = escapes text := by
  induction text with
  | nil => rfl
  | cons c text ih =>
    cases hc : isSpace c with
    | true  =>
      rw [escapes_cons (ne_backslash_of_isSpace hc), ← ih, Grammar.skipSpace,
        List.dropWhile_cons_of_pos hc, Grammar.skipSpace]
    | false => rw [Grammar.skipSpace_cons hc]

-- Whether a text has only escapes that are known between quotes, too.
def Plain (text : List Char) : Prop := ∀ e ∈ escapes text, e ∉ ['b', 'f', 'u']

theorem double?_eq_none_iff {e c : Char} (h : shortEscape? e = some c) :
    Quoted.double? e = none ↔ e ∈ ['b', 'f', 'u'] := by
  unfold shortEscape? at h
  split at h
  case h_9 => cases h
  all_goals decide

-- A string in quotes ends in front of `rest` if its escapes are plain, and it is none otherwise,
-- whatever follows it.
def QuotedUpTo (text rest : List Char) : Prop :=
  (Plain text ∧ ∃ content, Quoted.contents? '"' Quoted.double? text = some (content, rest)) ∨
  ¬ Plain text ∧ ∀ more, Quoted.contents? '"' Quoted.double? (text ++ more) = none

theorem QuotedUpTo.prepend {c : Char} (hp : Plain text ↔ Plain inner)
    (hs : ∀ more, Quoted.contents? '"' Quoted.double? (text ++ more) =
      (Quoted.contents? '"' Quoted.double? (inner ++ more)).map fun found =>
        (c :: found.1, found.2))
    (h : QuotedUpTo inner rest) : QuotedUpTo text rest := by
  rw [QuotedUpTo, hp]
  refine h.imp (.imp_right ?_) (.imp_right ?_)
  · rintro ⟨content, h⟩
    have hs := hs []
    rw [List.append_nil, List.append_nil, h] at hs
    exact ⟨c :: content, hs⟩
  · exact fun h more => by rw [hs, h, Option.map_none]

-- It ends where the string of a document does.
theorem quotedUpTo_of_parts? (h : parts? text = some (ps, rest)) (hr : escapes rest = []) :
    QuotedUpTo text rest := by
  fun_induction parts? text generalizing ps rest with
  | case1 => cases h
  | case2 =>
    cases h
    refine .inl ⟨?_, [], rfl⟩
    rw [Plain, escapes_cons (by decide), hr]
    exact fun e he => absurd he List.not_mem_nil
  | case3 a b c d r ih =>
    exact .inr ⟨fun hp => hp 'u' List.mem_cons_self (by decide), fun more => rfl⟩
  | case4 e r _ ih =>
    obtain ⟨_, he, h⟩ := Option.bind_eq_some_iff.mp h
    obtain ⟨⟨ps, rest⟩, hr', e'⟩ := Option.bind_eq_some_iff.mp h
    cases e'
    have hplain : Plain ('\\' :: e :: r) ↔ e ∉ ['b', 'f', 'u'] ∧ Plain r := List.forall_mem_cons
    cases hc : Quoted.double? e with
    | none   =>
      exact .inr ⟨fun hp => (hplain.mp hp).1 ((double?_eq_none_iff he).mp hc),
        fun more => by simp [Quoted.contents?, hc]⟩
    | some c =>
      have he' : e ∉ ['b', 'f', 'u'] := fun hm =>
        Option.some_ne_none c (hc.symm.trans ((double?_eq_none_iff he).mpr hm))
      exact (ih hr' hr).prepend (hplain.trans (and_iff_right he')) fun more =>
        Quoted.contents?_backslash hc (r ++ more)
  | case5 => cases h
  | case6 c r hq _ _ hc ih =>
    obtain ⟨⟨ps, rest⟩, hr', e⟩ := Option.bind_eq_some_iff.mp h
    cases e
    have hq : c ≠ '"' := hq
    have hb : c ≠ '\\' := fun e => hc (.inr e)
    have hplain : Plain (c :: r) ↔ Plain r := by rw [Plain, escapes_cons hb, Plain]
    exact (ih hr' hr).prepend (c := c) hplain fun more => by
      simp [Quoted.contents?, hq, hb, Option.map_eq_bind]

-- A parenthesis stands for itself wherever it is written in a string.
theorem mem_parts_of_mem (h : parts? text = some (ps, rest)) (hm : ')' ∈ text) :
    ')' ∈ rest ∨ .char ')' ∈ ps := by
  fun_induction parts? text generalizing ps rest with
  | case1 => cases h
  | case2 =>
    cases h
    exact .inl (by simpa using hm)
  | case3 a b c d r ih =>
    obtain ⟨n, hu, h⟩ := Option.bind_eq_some_iff.mp h
    obtain ⟨⟨ps, rest⟩, hr, e⟩ := Option.bind_eq_some_iff.mp h
    cases e
    simp only [unit?, bind, Option.bind_eq_some_iff] at hu
    obtain ⟨_, ha, _, hb, _, hc, _, hd, _⟩ := hu
    have hne {d : Char} {n : Nat} (h : hexDigit? d = some n) : ')' ≠ d := by
      rintro rfl
      cases h
    have hm : ')' ∈ r := by
      simpa [hne ha, hne hb, hne hc, hne hd] using hm
    exact (ih hr hm).imp_right (List.mem_cons_of_mem _)
  | case4 e r _ ih =>
    obtain ⟨c, hc, h⟩ := Option.bind_eq_some_iff.mp h
    obtain ⟨⟨ps, rest⟩, hr, e'⟩ := Option.bind_eq_some_iff.mp h
    cases e'
    have he : ')' ≠ e := by
      rintro rfl
      cases hc
    have hm : ')' ∈ r := by simpa [he] using hm
    exact (ih hr hm).imp_right (List.mem_cons_of_mem _)
  | case5 => cases h
  | case6 c r _ _ _ _ ih =>
    obtain ⟨⟨ps, rest⟩, hr, e⟩ := Option.bind_eq_some_iff.mp h
    cases e
    cases List.mem_cons.mp hm
    case inl e => exact .inr (e ▸ List.mem_cons_self)
    case inr hm => exact (ih hr hm).imp_right (List.mem_cons_of_mem _)

theorem mem_characters_of_mem {c : Char} (h : characters? ps = some cs) (hm : .char c ∈ ps) :
    c ∈ cs := by
  fun_induction characters? ps generalizing cs with
  | case1 => cases hm
  | case2 d ps ih =>
    obtain ⟨cs, hcs, rfl⟩ := Option.map_eq_some_iff.mp h
    cases List.mem_cons.mp hm
    case inl e => exact Part.char.inj e ▸ List.mem_cons_self
    case inr hm => exact List.mem_cons_of_mem _ (ih hcs hm)
  | case3 n m ps _ _ ih =>
    obtain ⟨cs, hcs, rfl⟩ := Option.map_eq_some_iff.mp h
    exact List.mem_cons_of_mem _ (ih hcs (by simpa using hm))
  | case4 | case5 | case7 => cases h
  | case6 n m ps _ _ ih =>
    obtain ⟨cs, hcs, rfl⟩ := Option.map_eq_some_iff.mp h
    exact List.mem_cons_of_mem _ (ih hcs (by simpa using hm))
  | case8 n ps _ _ ih =>
    obtain ⟨cs, hcs, rfl⟩ := Option.map_eq_some_iff.mp h
    exact List.mem_cons_of_mem _ (ih hcs (by simpa using hm))

theorem head_of_read?_str {s : Option String} (h : read? text = some (str s, rest)) :
    text.head? = some '"' := by
  unfold read? at h
  split at h
  case h_10 => rfl
  case h_11 | h_12 =>
    obtain ⟨_, _, e⟩ := Option.map_eq_some_iff.mp h
    cases e
  all_goals cases h

end Lexeme

namespace Json

open Grammar

variable {text : List Char} {v : Json}

-- How a document is written, up to the spaces in front of it: it is a string between double quotes,
-- or it starts with no quote and is no string.
inductive Written (text : List Char) : Json → Prop
  | string {inner spaces : List Char} {ps : List Lexeme.Part} {s : String}
      (ht : skipSpace text = '"' :: inner) (hp : Lexeme.parts? inner = some (ps, spaces))
      (hs : Lexeme.characters? ps = some s.toList)
      (hspaces : ∀ c ∈ spaces, Lexeme.isSpace c = true) : Written text (.str s)
  | other {c : Char} {r : List Char} {w : Json} (ht : skipSpace text = c :: r) (hd : c ≠ '"')
      (hq : c ≠ '\'') (hw : w.kind ≠ .string) : Written text w

theorem written_of_read? (h : read? text = some v) : Written text v := by
  obtain ⟨d, hd, hv⟩ := Option.bind_eq_some_iff.mp h
  obtain ⟨ls, hls, hd⟩ := Option.bind_eq_some_iff.mp hd
  rw [Lexeme.readAll?_eq] at hls
  split at hls
  case _ =>
    cases hls
    cases hd
  case _ c r ht =>
    obtain ⟨⟨l, rest⟩, hr, hls⟩ := Option.bind_eq_some_iff.mp hls
    obtain ⟨ls, hrest, rfl⟩ := Option.map_eq_some_iff.mp hls
    have hrun := Draft.State.run_value_cons hd
    by_cases hc : c = '"'
    case pos =>
      subst hc
      obtain ⟨⟨ps, _⟩, hp, e⟩ := Option.map_eq_some_iff.mp hr
      cases e
      rcases hrun with (⟨e, _⟩ | ⟨e, _⟩) | ⟨rfl, hs⟩
      · cases e
      · cases e
      · cases hs
        obtain ⟨s, hs, rfl⟩ := Option.map_eq_some_iff.mp hv
        obtain ⟨cs, hcs, rfl⟩ := Option.map_eq_some_iff.mp hs
        exact .string ht hp (by simpa using hcs) (Lexeme.isSpace_of_readAll?_nil hrest)
    case neg =>
      have hq : c ≠ '\'' := by
        rintro rfl
        cases hr
      refine .other ht hc hq fun hk => ?_
      cases v <;> cases hk
      obtain ⟨s, rfl⟩ : ∃ s, d = .str s := by
        cases d
        case str => exact ⟨_, rfl⟩
        case null | bool => cases hv
        all_goals
          obtain ⟨_, _, e⟩ := Option.map_eq_some_iff.mp hv
          cases e
      rcases hrun with (⟨_, hk⟩ | ⟨_, hk⟩) | ⟨_, hs⟩
      · cases hk
      · cases hk
      · cases l <;> cases hs
        exact hc (Option.some.inj (Lexeme.head_of_read?_str hr))

-- A string with plain escapes is read in quotes up to its end, and no other document is, whatever
-- follows it.
theorem quoted_cases (h : read? text = some v) :
    ((v.kind = .string ∧ Lexeme.Plain text) ∧ ∃ spaces, (∀ c ∈ spaces, Lexeme.isSpace c = true) ∧
      skipSpace text = Text.trim text ++ spaces ∧
      ∀ more, ∃ s, Quoted.read? (Text.trim text ++ more) = some (s, more)) ∨
    ¬ (v.kind = .string ∧ Lexeme.Plain text) ∧
      ∀ more, Quoted.read? (skipSpace text ++ more) = none := by
  cases written_of_read? h with
  | @string inner spaces ps s ht hp hs hspaces =>
    have hplain : Lexeme.Plain text ↔ Lexeme.Plain inner := by
      rw [Lexeme.Plain, ← Lexeme.escapes_skipSpace, ht, Lexeme.escapes_cons (by decide),
        Lexeme.Plain]
    rw [hplain]
    cases Lexeme.quotedUpTo_of_parts? hp (Lexeme.escapes_of_isSpace hspaces)
    case inl hc =>
      obtain ⟨hin, content, hc⟩ := hc
      obtain ⟨body, rfl, _⟩ := Lexeme.parts?_append hp
      have hread : Quoted.read? ('"' :: (body ++ '"' :: spaces)) =
          some (String.ofList content, spaces) := by
        rw [Quoted.read?, hc]
        rfl
      obtain ⟨taken, e, hread⟩ := Quoted.read?_append hread
      have e : taken = '"' :: (body ++ ['"']) :=
        List.append_cancel_right (by rw [← e]; simp)
      have hblank : Text.trimEnd spaces = [] :=
        Text.trimEnd_of_forall fun c hc => Text.isBlank_of_isSpace (hspaces c hc)
      have ht : skipSpace text = taken ++ spaces := ht.trans (by simp [e])
      have hends : EndsVisibly taken := e ▸ ⟨'"' :: body, '"', rfl, by decide⟩
      have htrim : Text.trim text = taken := by
        rw [trim_of_read? h, ht, Text.trimEnd_append_of_endsVisibly hends, hblank, List.append_nil]
      rw [htrim]
      exact .inl ⟨⟨rfl, hin⟩, spaces, hspaces, ht, fun more => ⟨_, hread more⟩⟩
    case inr hc =>
      obtain ⟨hin, hc⟩ := hc
      refine .inr ⟨fun h => hin h.2, fun more => ?_⟩
      rw [ht, List.cons_append, Quoted.read?, hc more]
      rfl
  | other ht hd hq hw =>
    refine .inr ⟨fun h => hw h.1, fun more => ?_⟩
    rw [ht]
    exact Quoted.read?_eq_none hd hq

end Json

end JsonQuery
