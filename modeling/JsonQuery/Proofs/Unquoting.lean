import JsonQuery.Proofs.Comparing

namespace JsonQuery

namespace Quoted

variable {quote : Char} {escape? : Char → Option Char} {text body content rest : List Char}
  {s : String}

-- How a string is spelled between quotes: an escape stands for one character, and every other
-- character for itself.
inductive Spells (quote : Char) (escape? : Char → Option Char) : List Char → List Char → Prop
  | nil : Spells quote escape? [] []
  | escape {e c : Char} {body content : List Char} (he : escape? e = some c)
      (h : Spells quote escape? body content) :
      Spells quote escape? ('\\' :: e :: body) (c :: content)
  | plain {c : Char} {body content : List Char} (hq : c ≠ quote) (hb : c ≠ '\\')
      (h : Spells quote escape? body content) : Spells quote escape? (c :: body) (c :: content)

theorem spells_of_contents? (h : contents? quote escape? text = some (content, rest)) :
    ∃ body, text = body ++ quote :: rest ∧ Spells quote escape? body content := by
  fun_induction contents? quote escape? text generalizing content rest with
  | case1 => cases h
  | case2 e text ih =>
    obtain ⟨c, hc, h⟩ := Option.bind_eq_some_iff.mp h
    obtain ⟨⟨content, rest⟩, hr, e'⟩ := Option.bind_eq_some_iff.mp h
    cases e'
    obtain ⟨body, rfl, hs⟩ := ih hr
    exact ⟨'\\' :: e :: body, rfl, .escape hc hs⟩
  | case3 =>
    cases h
    exact ⟨[], rfl, .nil⟩
  | case4 => cases h
  | case5 c text _ hq hb ih =>
    obtain ⟨⟨content, rest⟩, hr, e⟩ := Option.bind_eq_some_iff.mp h
    cases e
    obtain ⟨body, rfl, hs⟩ := ih hr
    exact ⟨c :: body, rfl, .plain hq hb hs⟩

theorem Spells.length_le (h : Spells quote escape? body content) :
    content.length ≤ body.length := by
  induction h with
  | nil => exact Nat.le_refl 0
  | escape _ _ ih | plain _ _ _ ih =>
    simp only [List.length_cons]
    omega

-- A text in quotes of either kind, and the string that it stands for.
inductive Denotes (s : String) : List Char → Prop
  | double {body : List Char} (h : Spells '"' double? body s.toList) :
      Denotes s ('"' :: (body ++ ['"']))
  | single {body : List Char} (h : Spells '\'' single? body s.toList) :
      Denotes s ('\'' :: (body ++ ['\'']))

theorem denotes_of_read? (h : read? text = some (s, [])) : Denotes s text := by
  unfold read? at h
  split at h
  case _ | _ =>
    obtain ⟨⟨content, _⟩, hc, e⟩ := Option.map_eq_some_iff.mp h
    cases e
    obtain ⟨body, rfl, hs⟩ := spells_of_contents? hc
    constructor
    rwa [String.toList_ofList]
  case _ => cases h

theorem Denotes.trim (h : Denotes s text) : Text.trim text = text := by
  cases h with
  | @double body | @single body =>
    exact Text.trim_of_visible rfl (by decide) ⟨_ :: body, _, rfl, by decide⟩

end Quoted

namespace Lexeme

open Quoted

variable {e c : Char} {body content rest : List Char}

-- The escapes of an expression are escapes of a document, and they mean the same.
theorem shortEscape?_of_double? (h : double? e = some c) :
    e ≠ 'u' ∧ shortEscape? e = some c ∧ 0x20 ≤ e.toNat := by
  unfold double? at h
  split at h
  case h_7 => cases h
  all_goals exact ⟨by decide, h, by decide⟩

theorem parts?_control (hn : c.toNat < 0x20) (hq : c ≠ '"') (hb : c ≠ '\\') (rest : List Char) :
    parts? (c :: rest) = none := by
  rw [parts?, if_pos (.inl hn)]
  · exact hq
  · intro _ _ _ _ _ he
    exact absurd he hb
  · intro _ _ he
    exact absurd he hb

-- A string between double quotes is the same one in a document, where it is none if it holds a
-- control character.
theorem parts?_of_spells (h : Spells '"' double? body content) (rest : List Char) :
    parts? (body ++ '"' :: rest) =
      if body.all (0x20 ≤ ·.toNat) then some (content.map .char, rest) else none := by
  induction h with
  | nil => rfl
  | @escape e c body content he _ ih =>
    obtain ⟨hu, hs, hn⟩ := shortEscape?_of_double? he
    rw [List.cons_append, List.cons_append, parts?_backslash hu hs, ih]
    split <;> simp_all
  | @plain c body content hq hb _ ih =>
    rw [List.cons_append]
    by_cases hn : c.toNat < 0x20
    case pos =>
      simp [parts?_control hn hq hb, Nat.not_le.mpr hn]
    case neg =>
      rw [parts?_plain hn hq hb, ih]
      split <;> simp_all

theorem characters?_char (cs : List Char) : characters? (cs.map .char) = some cs := by
  induction cs with
  | nil => rfl
  | cons c cs ih => rw [List.map_cons, characters?, ih, Option.map_some]

end Lexeme

namespace Json

open Quoted

variable {body : List Char} {s : String}

-- A document that is a string between double quotes.
theorem read?_of_spells (h : Spells '"' double? body s.toList) :
    read? ('"' :: (body ++ ['"'])) =
      if body.all (0x20 ≤ ·.toNat) then some (.str s) else none := by
  have hr : Lexeme.read? ('"' :: (body ++ ['"'])) = (Lexeme.parts? (body ++ ['"'])).map
      fun p => (.str ((Lexeme.characters? p.1).map String.ofList), p.2) := rfl
  have hd : ('"' :: (body ++ ['"'])).dropWhile Lexeme.isSpace = '"' :: (body ++ ['"']) := rfl
  rw [Lexeme.parts?_of_spells h] at hr
  rw [read?, Draft.read?, Lexeme.readAll?_eq, hd]
  simp only [hr]
  split
  case isTrue =>
    simp only [Option.map_some, Option.bind_some, Lexeme.readAll?_nil, Lexeme.characters?_char,
      String.ofList_toList]
    rfl
  case isFalse => rfl

end Json

namespace Literal

open Quoted

variable {body content q : List Char} {s : String}

-- Between single quotes a backslash is followed by a quote only if it is its escape.
theorem unescape_backslash (h : Spells '\'' single? body content) :
    unescape ('\\' :: body) = '\\' :: unescape body := by
  refine unescape.eq_3 _ _ fun rest _ e => ?_
  cases h with
  | nil | escape => cases e
  | plain hq =>
    cases e
    exact hq rfl

theorem unescape_cons {c : Char} (hb : c ≠ '\\') (text : List Char) :
    unescape (c :: text) = c :: unescape text :=
  unescape.eq_3 c text fun _ e => absurd e hb

theorem single?_cases {e c : Char} (h : single? e = some c) :
    (e = '\\' ∧ c = '\\') ∨ (e = '\'' ∧ c = '\'') := by
  unfold single? at h
  split at h <;> cases h <;> simp

-- Every escaped backslash leaves one character more in a literal than in a key.
theorem length_unescape (h : Spells '\'' single? body content) :
    (unescape body).length = content.length + (Lexeme.escapes body).count '\\' := by
  induction h with
  | nil => rfl
  | @escape e c body content he h ih =>
    rcases single?_cases he with ⟨rfl, rfl⟩ | ⟨rfl, rfl⟩
    case inl =>
      have hu : unescape ('\\' :: '\\' :: body) = '\\' :: '\\' :: unescape body := by
        rw [unescape.eq_3 _ _ fun _ _ e => absurd (List.cons.inj e).1 (by decide),
          unescape_backslash h]
      rw [hu, Lexeme.escapes, List.count_cons_self, List.length_cons, List.length_cons,
        List.length_cons, ih]
      omega
    case inr =>
      rw [unescape, Lexeme.escapes, List.count_cons_of_ne (by decide), List.length_cons,
        List.length_cons, ih]
      omega
  | @plain c body content hq hb h ih =>
    rw [unescape_cons hb, Lexeme.escapes_cons hb, List.length_cons, List.length_cons, ih]
    omega

theorem unescape_of_spells (h : Spells '\'' single? body content)
    (he : '\\' ∉ Lexeme.escapes body) : unescape body = content := by
  induction h with
  | nil => rfl
  | escape hc _ ih =>
    rw [Lexeme.escapes, List.mem_cons, not_or] at he
    rcases single?_cases hc with ⟨rfl, _⟩ | ⟨rfl, rfl⟩
    case inl => exact absurd rfl he.1
    case inr => rw [unescape, ih he.2]
  | plain _ hb _ ih =>
    rw [Lexeme.escapes_cons hb] at he
    rw [unescape_cons hb, ih he]

theorem unescape_eq_iff (h : Spells '\'' single? body content) :
    unescape body = content ↔ '\\' ∉ Lexeme.escapes body := by
  refine ⟨fun e => ?_, unescape_of_spells h⟩
  have hl := length_unescape h
  rw [e] at hl
  exact List.count_eq_zero.mp (by omega)

theorem escapes_append (h : Spells '\'' single? body content) (rest : List Char) :
    Lexeme.escapes (body ++ rest) = Lexeme.escapes body ++ Lexeme.escapes rest := by
  induction h with
  | nil => rfl
  | escape _ _ ih => exact congrArg _ ih
  | plain _ hb _ ih => rw [List.cons_append, Lexeme.escapes_cons hb, Lexeme.escapes_cons hb, ih]

-- Whether a text in quotes is spelled like a literal: between double quotes it has no control
-- character, as in a document, and between single quotes no escaped backslash.
def Quotes : List Char → Prop
  | '"' :: body  => ∀ c ∈ body, 0x20 ≤ c.toNat
  | '\'' :: body => '\\' ∉ Lexeme.escapes body
  | _ => False

-- A literal is the string between its quotes if it is spelled like one, and in no other case.
theorem ofText_eq_iff (h : Denotes s q) : ofText q = .str s ↔ Quotes q := by
  rw [ofText, h.trim]
  cases h with
  | @double body h =>
    have hq : Quotes ('"' :: (body ++ ['"'])) ↔ ∀ c ∈ body, 0x20 ≤ c.toNat := by
      simp [Quotes, or_imp, forall_and]
    rw [hq]
    have hall : body.all (0x20 ≤ ·.toNat) = true ↔ ∀ c ∈ body, 0x20 ≤ c.toNat := by simp
    rw [← hall, Json.read?_of_spells h]
    cases body.all (0x20 ≤ ·.toNat) with
    | true => exact iff_of_true rfl rfl
    | false =>
      refine iff_of_false (fun e => ?_) Bool.false_ne_true
      have hl := h.length_le
      simp only [singleQuoted?] at e
      have hs : s.toList = '"' :: (body ++ ['"']) := by
        rw [← Json.str.inj e, String.toList_ofList]
      simp only [hs, List.length_cons, List.length_append] at hl
      omega
  | @single body h =>
    have hq : Quotes ('\'' :: (body ++ ['\''])) ↔ '\\' ∉ Lexeme.escapes body := by
      simp [Quotes, escapes_append h, Lexeme.escapes]
    have hn : Json.read? ('\'' :: (body ++ ['\''])) = none :=
      Option.eq_none_iff_forall_ne_some.mpr fun v hv => (Grammar.head_of_read? hv '\'' rfl).1 rfl
    have hs : singleQuoted? ('\'' :: (body ++ ['\''])) = some body := by simp [singleQuoted?]
    rw [hq, ← unescape_eq_iff h]
    simp only [hn, hs, Json.str.injEq, ← String.toList_inj, String.toList_ofList]

end Literal

namespace Grammar

variable {k q : List Char} {field s : String}

theorem operand?_quoted (hq : Quoted.read? q = some (s, [])) (after : List Char) :
    operand? (q ++ after) = some (q, after) := by
  obtain ⟨taken, e, hread⟩ := Quoted.read?_append hq
  rw [List.append_nil] at e
  subst e
  simp only [operand?, hread, consumed_append]

theorem skipSpace_quoted (hq : Quoted.read? q = some (s, [])) (after : List Char) :
    skipSpace (q ++ after) = q ++ after := by
  cases Quoted.denotes_of_read? hq <;> rfl

-- A comparison whose literal is read up to the closing parenthesis.
theorem predicate_of_operand? {text operand rest after : List Char}
    (hk : name? k = some (field, [])) (op : Comparison)
    (hs : skipSpace (text ++ ')' :: after) = text ++ ')' :: after)
    (ho : operand? (text ++ ')' :: after) = some (operand, rest))
    (hr : skipSpace rest = ')' :: after) :
    predicate (comparisonText k op text ++ after) =
      .ok (.compare field op (Literal.ofText operand), after) := by
  have ht : comparisonText k op text ++ after = '(' :: '@' :: '.' ::
      (k ++ ' ' :: (op.symbol.toList ++ ' ' :: (text ++ ')' :: after))) := by
    simp [comparisonText]
  refine predicate_of_compare? ?_
  rw [compare?_eq, ht, comparing?_member hk, hs]
  simp [ho, hr, expect?_cons]

theorem predicate_quoted (hk : name? k = some (field, [])) (hq : Quoted.read? q = some (s, []))
    (op : Comparison) (after : List Char) :
    predicate (comparisonText k op q ++ after) =
      .ok (.compare field op (Literal.ofText q), after) :=
  predicate_of_operand? hk op (skipSpace_quoted hq _) (operand?_quoted hq _) rfl

end Grammar

namespace Path

open Grammar

variable {raw : String} {taken : List Char} {p : Predicate}

theorem toList_bracketed (s : String) : ("[" ++ s ++ "]").toList = '[' :: (s.toList ++ [']']) := by
  simp

-- A path of a single selector is its text between brackets.
theorem ofString_selector (ht : raw.toList = '?' :: taken)
    (h : predicate (taken ++ [']']) = .ok (p, [']'])) :
    ofString ("[" ++ raw ++ "]") = .ok [.selector p raw] := by
  have hraw : String.ofList ('?' :: taken) = raw := by rw [← ht, String.ofList_toList]
  rw [ofString, toList_bracketed, ht]
  exact hraw ▸ parse_bracket (bracket_of_predicate h)

theorem exists_predicate_of_ofString (ht : raw.toList = '?' :: taken) {text : String}
    (h : ofString ("[" ++ raw ++ "]") = .ok [.selector p text]) :
    ∃ after, predicate (taken ++ [']']) = .ok (p, after) := by
  rw [ofString, toList_bracketed, ht] at h
  obtain ⟨_, hb⟩ := exists_bracket_of_parse (trim_bracketed _) h
  exact exists_predicate_of_bracket hb

-- A text in quotes is one string as a key, and the same string as the literal of a comparison if it
-- is spelled like a literal.
theorem ofString_quoted {k field q s : String} (hk : name? k.toList = some (field, []))
    (hq : Quoted.read? q.toList = some (s, [])) (op : Comparison) :
    let comparison := "?(@." ++ k ++ " " ++ op.symbol ++ " " ++ q ++ ")"
    ofString ("[" ++ q ++ "]") = .ok [.key s false] ∧
    ∃ v, ofString ("[" ++ comparison ++ "]") = .ok [.selector (.compare field op v) comparison] ∧
      (v = .str s ↔ Literal.Quotes q.toList) := by
  intro comparison
  refine ⟨?key, Literal.ofText q.toList, ?literal, Literal.ofText_eq_iff (Quoted.denotes_of_read? hq)⟩
  case key =>
    obtain ⟨taken, e, hread⟩ := Quoted.read?_append hq
    rw [List.append_nil] at e
    have hb := bracketBody_of_quoted (e ▸ hread [']'])
    rw [ofString, toList_bracketed]
    exact parse_bracket (bracket_of_body (skipSpace_quoted hq [']']) hb)
  case literal =>
    have ht : comparison.toList = '?' :: comparisonText k.toList op q.toList := by
      simp [comparison, comparisonText]
    exact ofString_selector ht (predicate_quoted hk hq op [']'])

-- An apostrophe means the same at both places, and a backslash in front of another one does not.
theorem ofString_quoted_apostrophe :
    ofString "['it\\'s']" = .ok [.key "it's" false] ∧
      ofString "[?(@.k == 'it\\'s')]" =
        .ok [.selector (.compare "k" .eq (.str "it's")) "?(@.k == 'it\\'s')"] ∧
      ofString "['\\\\']" = .ok [.key "\\" false] ∧
      ofString "[?(@.k == '\\\\')]" ≠
        .ok [.selector (.compare "k" .eq (.str "\\")) "?(@.k == '\\\\')"] := by
  have hk : name? "k".toList = some ("k", []) := by decide
  have ha : Quoted.read? "'it\\'s'".toList = some ("it's", []) := by decide
  have hb : Quoted.read? "'\\\\'".toList = some ("\\", []) := by decide
  obtain ⟨hkey, v, hv, hiff⟩ := ofString_quoted hk ha .eq
  obtain ⟨hkey', w, hw, hiff'⟩ := ofString_quoted hk hb .eq
  have hs : Literal.Quotes "'it\\'s'".toList := by simp [Literal.Quotes, Lexeme.escapes]
  have hn : ¬ Literal.Quotes "'\\\\'".toList := by simp [Literal.Quotes, Lexeme.escapes]
  refine ⟨hkey, hiff.mpr hs ▸ hv, hkey', fun e => ?_⟩
  cases hw.symm.trans e
  exact hn (hiff'.mp rfl)

end Path

end JsonQuery
