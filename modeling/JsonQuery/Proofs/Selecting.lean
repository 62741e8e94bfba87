import JsonQuery.Proofs.Unquoting

namespace JsonQuery

namespace Quoted

variable {quote : Char} {escape? : Char → Option Char} {u body content : List Char} {c : Char}

-- A quote and a backslash stand for themselves behind a backslash, and nothing else stands for them.
def EscapesItself (quote : Char) (escape? : Char → Option Char) : Prop :=
  ∀ e c, escape? e = some c → c = quote ∨ c = '\\' → e = c

theorem escapesItself_double? : EscapesItself '"' double? := by
  intro e c he hc
  unfold double? at he
  split at he <;> cases he <;> simp at hc ⊢

theorem escapesItself_single? : EscapesItself '\'' single? := by
  intro e c he _
  rcases Literal.single?_cases he with ⟨rfl, rfl⟩ | ⟨rfl, rfl⟩ <;> rfl

theorem Spells.backslash (hesc : EscapesItself quote escape?)
    (h : Spells quote escape? body (c :: content)) (hc : c = quote ∨ c = '\\') :
    ∃ inner, body = '\\' :: c :: inner ∧ Spells quote escape? inner content := by
  cases h with
  | escape he h => exact ⟨_, by rw [hesc _ _ he hc], h⟩
  | plain hq hb => exact absurd hc (not_or.mpr ⟨hq, hb⟩)

-- A text in quotes is longer than its string, so what it would have to start with is found again
-- further and further behind, up to the space.
theorem not_spells_self (hesc : EscapesItself quote escape?) (hq : quote ≠ ' ')
    (t : List Char) : (w u : List Char) → u ≠ [] → (∀ c ∈ u, c = quote ∨ c = '\\') →
      ¬ Spells quote escape? (w ++ ' ' :: t) (u ++ w)
  | _, [], hu, _ => absurd rfl hu
  | [], c :: u, _, hs => by
    intro h
    obtain ⟨inner, e, _⟩ := h.backslash hesc (hs c List.mem_cons_self)
    cases e
  | [d], c :: u, _, hs => by
    intro h
    obtain ⟨inner, e, _⟩ := h.backslash hesc (hs c List.mem_cons_self)
    have hc : ' ' = c := (List.cons.inj (List.cons.inj e).2).1
    rcases hs c List.mem_cons_self with rfl | rfl
    · exact hq hc.symm
    · cases hc
  | d :: d' :: w, c :: u, _, hs => by
    intro h
    obtain ⟨inner, e, h⟩ := h.backslash hesc (hs c List.mem_cons_self)
    cases e
    have hs' : ∀ x ∈ u ++ ['\\', d'], x = quote ∨ x = '\\' := by
      intro x hx
      simp only [List.mem_append, List.mem_cons, List.not_mem_nil, or_false] at hx
      rcases hx with hx | rfl | rfl
      · exact hs x (List.mem_cons_of_mem _ hx)
      · exact .inr rfl
      · exact hs x List.mem_cons_self
    refine not_spells_self hesc hq t w (u ++ ['\\', d']) (by simp) hs' ?_
    simpa using h

end Quoted

namespace Grammar

open Quoted

variable {key : String} {rest after : List Char}

-- Whether a key is written as a word, which is read as this key in front of a space.
def IsWord (key : String) : Prop := key.toList ≠ [] ∧ ∀ c ∈ key.toList, isWordChar c = true

theorem name?_of_isWord (h : IsWord key) : name? key.toList = some (key, []) := by
  have hw : word? key.toList = some (key.toList, []) :=
    word?_eq_some_iff.mpr ⟨by simp, h.1, h.2, by simp⟩
  rw [name?, read?_of_word? hw, hw]
  simp

-- A string in quotes is never the text that it is read from, up to a space, with its quotes.
theorem not_contents?_self {quote : Char} {escape? : Char → Option Char}
    {content text : List Char} (hesc : EscapesItself quote escape?) (hq : quote ≠ ' ')
    (h : contents? quote escape? text = some (content, after)) :
    content ++ ' ' :: rest ≠ quote :: text := by
  intro e
  obtain ⟨word, rfl, rfl⟩ : ∃ word, content = quote :: word ∧ text = word ++ ' ' :: rest := by
    cases content with
    | nil => exact absurd (List.cons.inj e).1.symm hq
    | cons c word =>
      obtain ⟨rfl, rfl⟩ := List.cons.inj e
      exact ⟨word, rfl, rfl⟩
  obtain ⟨body, e, hs⟩ := spells_of_contents? h
  have hl := hs.length_le
  rcases List.append_eq_append_iff.mp e with ⟨t, rfl, e'⟩ | ⟨t, rfl, _⟩
  case inl =>
    cases t with
    | nil => simp at hl
    | cons c t =>
      obtain ⟨rfl, _⟩ := List.cons.inj e'
      exact not_spells_self hesc hq t word [quote] (by simp) (by simp) hs
  case inr =>
    simp only [List.length_cons, List.length_append] at hl
    omega

theorem read?_ne_self : Quoted.read? (key.toList ++ ' ' :: rest) ≠ some (key, after) := by
  intro h
  unfold Quoted.read? at h
  split at h
  case h_1 e =>
    obtain ⟨⟨content, _⟩, hc, e'⟩ := Option.map_eq_some_iff.mp h
    cases e'
    rw [String.toList_ofList] at e
    exact not_contents?_self escapesItself_double? (by decide) hc e
  case h_2 e =>
    obtain ⟨⟨content, _⟩, hc, e'⟩ := Option.map_eq_some_iff.mp h
    cases e'
    rw [String.toList_ofList] at e
    exact not_contents?_self escapesItself_single? (by decide) hc e
  case h_3 => cases h

-- No other key is read as itself.
theorem isWord_of_name? (h : name? (key.toList ++ ' ' :: rest) = some (key, after)) :
    IsWord key := by
  unfold name? at h
  split at h
  case _ found hr =>
    cases h
    exact absurd hr read?_ne_self
  case _ =>
    obtain ⟨⟨word, _⟩, hw, e⟩ := Option.map_eq_some_iff.mp h
    cases e
    obtain ⟨_, hn, hw, _⟩ := word?_eq_some_iff.mp hw
    simpa [IsWord] using ⟨hn, hw⟩

-- What is compared is named in front of the sign.
theorem name?_of_comparing? {text : List Char} {op : Comparison}
    (h : comparing? ('(' :: '@' :: '.' :: text) = some ((key, op), rest)) :
    ∃ after, name? text = some (key, after) := by
  have hat : skipSpace ('@' :: '.' :: text) = '@' :: '.' :: text := rfl
  simp only [comparing?, expect?_cons, hat, if_true, bind, Option.bind_some] at h
  obtain ⟨⟨_, after⟩, hn, h⟩ := Option.bind_eq_some_iff.mp h
  obtain ⟨_, _, e⟩ := Option.bind_eq_some_iff.mp h
  cases e
  exact ⟨after, hn⟩

end Grammar

namespace Json

mutual

-- How many containers of a document lie inside of each other.
def nesting : Json → Nat
  | arr items   => nestingOfItems items + 1
  | obj members => nestingOfMembers members + 1
  | _           => 0

def nestingOfItems : List Json → Nat
  | []        => 0
  | x :: rest => Nat.max x.nesting (nestingOfItems rest)

def nestingOfMembers : List (String × Json) → Nat
  | []             => 0
  | (_, x) :: rest => Nat.max x.nesting (nestingOfMembers rest)

end

mutual

theorem printable_of_wellFormed {room : Nat} :
    (v : Json) → v.WellFormed → v.nesting ≤ room → v.Printable room
  | null, _, _ | bool _, _, _ | str _, _, _ | num (.float _), _, _ => trivial
  | num (.int n), hw, _ => by
    rw [WellFormed] at hw
    exact Number.readsBack_int hw.1 hw.2
  | arr items, hw, hn => by
    rw [WellFormed] at hw
    rw [nesting] at hn
    rw [Printable]
    exact ⟨by omega, printableItems_of_wellFormed items hw.2 (by omega)⟩
  | obj members, hw, hn => by
    rw [WellFormed] at hw
    rw [nesting] at hn
    rw [Printable]
    exact ⟨by omega, hw.1, printableMembers_of_wellFormed members hw.2 (by omega)⟩

theorem printableItems_of_wellFormed {room : Nat} : (items : List Json) →
    WellFormedItems items → nestingOfItems items ≤ room → PrintableItems room items
  | [], _, _ => trivial
  | x :: rest, hw, hn => by
    rw [WellFormedItems] at hw
    rw [nestingOfItems] at hn
    obtain ⟨hx, hrest⟩ := Nat.max_le.mp hn
    rw [PrintableItems]
    exact ⟨printable_of_wellFormed x hw.1 hx, printableItems_of_wellFormed rest hw.2 hrest⟩

theorem printableMembers_of_wellFormed {room : Nat} : (members : List (String × Json)) →
    WellFormedMembers members → nestingOfMembers members ≤ room → PrintableMembers room members
  | [], _, _ => trivial
  | (_, x) :: rest, hw, hn => by
    rw [WellFormedMembers] at hw
    rw [nestingOfMembers] at hn
    obtain ⟨hx, hrest⟩ := Nat.max_le.mp hn
    rw [PrintableMembers]
    exact ⟨printable_of_wellFormed x hw.1 hx, printableMembers_of_wellFormed rest hw.2 hrest⟩

end

theorem printable_of_scalar {v : Json} (hw : v.WellFormed) (hs : v.isContainer = false) :
    v.Printable maxNesting := by
  refine printable_of_wellFormed v hw ?_
  cases v <;> first | exact Nat.zero_le _ | cases hs

theorem toList_render_obj (ms : List (String × Json)) :
    ∃ inner, (obj ms).render.toList = '{' :: (inner ++ ['}']) := by
  cases ms with
  | nil => exact ⟨[], by decide⟩
  | cons m ms =>
    obtain ⟨k, x⟩ := m
    refine ⟨(quoted k).toList ++ ':' :: (x.render.toList ++ (writeMembers "" ms).toList), ?_⟩
    simp [toList_render_members]

-- Only a string has a quote or a parenthesis in its text, of all scalars.
theorem not_mem_render_of_scalar {v : Json} (hs : v.isContainer = false)
    (hk : ∀ s, v ≠ .str s) : '"' ∉ v.render.toList ∧ ')' ∉ v.render.toList := by
  cases v with
  | null => decide
  | bool b => cases b <;> decide
  | num n =>
    obtain ⟨taken, ht, hp⟩ := Lexeme.takes_of_read?_num n.read?_text_eq
    have hr : (num n).render.toList = taken := by simpa [render, write] using ht
    rw [hr]
    exact ⟨fun h => Bool.noConfusion (hp _ h), fun h => Bool.noConfusion (hp _ h)⟩
  | str s => exact absurd rfl (hk s)
  | arr | obj => cases hs

end Json

namespace Literal

variable {v : Json}

-- The text of a document is this document as a literal if the floats are read from their own texts.
theorem ofText_render_iff (h : v.Printable Json.maxNesting) :
    ofText v.render.toList = v ↔ v.Precise := by
  have hv := Grammar.visible_render v
  rw [← Json.read?_render_iff h, ofText, hv.trim, hv.singleQuoted?]
  cases hr : Json.read? v.render.toList with
  | some w => simp
  | none =>
    refine iff_of_false (fun e => ?_) (Option.some_ne_none v).symm
    -- A string would have been read.
    have hp : v.Precise := by
      rw [← e]
      trivial
    cases hr.symm.trans ((Json.read?_render_iff h).mpr hp)

end Literal

namespace Grammar

open JsonQuery.Balanced

variable {key : String} {text after inner : List Char} {v : Json} {ms : List (String × Json)}

theorem operand?_unquoted (hv : Visible text) (hq : '"' ∉ text) (hp : ')' ∉ text)
    (after : List Char) : operand? (text ++ ')' :: after) = some (text, ')' :: after) := by
  obtain ⟨c, cs, e, hc, _⟩ := hv.starts
  have hd : c ≠ '"' := fun h => hq (e ▸ h ▸ List.mem_cons_self)
  have hread : Quoted.read? (text ++ ')' :: after) = none := by
    rw [e]
    exact Quoted.read?_eq_none hd hc
  have hn : text ≠ [] := by simp [e]
  obtain ⟨htake, hdrop⟩ := span_parenthesis hp after
  simp [operand?, hread, htake, hdrop, hn, trimEnd_of_endsVisibly hv.ends]

theorem operand?_render (hs : v.isContainer = false)
    (hl : ∀ s, v = .str s → ∀ c ∈ s.toList, Quoted.isLegible c = true) (after : List Char) :
    operand? (v.render.toList ++ ')' :: after) = some (v.render.toList, ')' :: after) := by
  by_cases hk : ∃ s, v = .str s
  case pos =>
    obtain ⟨s, rfl⟩ := hk
    have hr : (Json.str s).render = Json.quoted s := by simp [Json.render, Json.write]
    have hq := Quoted.read?_quoted (hl s rfl) []
    rw [List.append_nil] at hq
    rw [hr]
    exact operand?_quoted hq _
  case neg =>
    obtain ⟨hq, hp⟩ := Json.not_mem_render_of_scalar hs (not_exists.mp hk)
    exact operand?_unquoted (visible_render v) hq hp after

theorem predicate_render (hk : IsWord key) (op : Comparison) (hs : v.isContainer = false)
    (hl : ∀ s, v = .str s → ∀ c ∈ s.toList, Quoted.isLegible c = true) (after : List Char) :
    predicate (comparisonText key.toList op v.render.toList ++ after) =
      .ok (.compare key op (Literal.ofText v.render.toList), after) :=
  predicate_of_operand? (name?_of_isWord hk) op ((visible_render v).skipSpace _)
    (operand?_render hs hl after) rfl

theorem isWord_of_predicate {op : Comparison} {w : Json} {rest : List Char}
    (h : predicate (comparisonText key.toList op text ++ after) = .ok (.compare key op w, rest)) :
    IsWord key := by
  have hc : compare? (comparisonText key.toList op text ++ after) = some _ :=
    compare?_of_predicate h (by decide)
  rw [compare?_eq] at hc
  obtain ⟨⟨⟨_, _⟩, _⟩, hx, hc⟩ := Option.bind_eq_some_iff.mp hc
  obtain ⟨_, _, hc⟩ := Option.bind_eq_some_iff.mp hc
  obtain ⟨_, _, e⟩ := Option.map_eq_some_iff.mp hc
  cases e
  have ht : comparisonText key.toList op text ++ after = '(' :: '@' :: '.' ::
      (key.toList ++ ' ' :: (op.symbol.toList ++ ' ' :: (text ++ ')' :: after))) := by
    simp [comparisonText]
  rw [ht] at hx
  obtain ⟨_, hn⟩ := name?_of_comparing? hx
  exact isWord_of_name? hn

-- The members that are asked for are those of the object up to the last brace.
theorem read?_of_predicate_members {rest : List Char}
    (hc : cut? ['}'] 0 none (inner ++ '}' :: after) = some (inner, '}' :: after))
    (h : predicate ('{' :: (inner ++ '}' :: after)) = .ok (.members ms, rest)) :
    Json.read? ('{' :: (inner ++ ['}'])) = some (.obj ms) := by
  have hn : compare? ('{' :: (inner ++ '}' :: after)) = none := rfl
  simp only [predicate, hn, hc, List.cons_append] at h
  split at h
  case _ members hr =>
    cases h
    exact hr
  case _ => cases h

end Grammar

namespace Predicate

open Grammar

-- Whether a predicate can be written in an expression: a comparison with a scalar whose characters
-- can stand in quotes, or an object that lies within the limit of the reader.
def Writable : Predicate → Prop
  | compare _ _ v => v.WellFormed ∧ v.isContainer = false ∧
    ∀ s, v = .str s → ∀ c ∈ s.toList, Quoted.isLegible c = true
  | members ms => (Json.obj ms).WellFormed ∧ (Json.obj ms).nesting ≤ Json.maxNesting
  | _ => False

-- Whether the parts of a predicate are read from their own texts. A key is written without quotes.
def Faithful : Predicate → Prop
  | compare key _ v => IsWord key ∧ v.Precise
  | members ms => (Json.obj ms).Precise
  | _ => True

theorem toList_render_compare (key : String) (op : Comparison) (v : Json) :
    (compare key op v).render.toList =
      '?' :: comparisonText key.toList op v.render.toList := by
  simp [render, comparisonText]

theorem toList_render_members (ms : List (String × Json)) :
    (members ms).render.toList = '?' :: (Json.obj ms).render.toList := by
  simp [render]

theorem exists_members_text {ms : List (String × Json)}
    (h : (Json.obj ms).Printable Json.maxNesting) :
    ∃ inner, (Json.obj ms).render.toList = '{' :: (inner ++ ['}']) ∧ ∀ after,
      Balanced.cut? ['}'] 0 none (inner ++ '}' :: after) = some (inner, '}' :: after) := by
  obtain ⟨body, e⟩ := Json.toList_render_obj ms
  obtain ⟨inner, _, hi, _, hc⟩ := Draft.exists_inner_of_read? (Json.draft_of_render h)
    (by rw [e]; rfl) (by rw [e, ← List.cons_append, List.getLast?_append]; rfl)
  exact ⟨inner, hi, hc⟩

end Predicate

namespace Path

open Grammar

theorem render_ofPredicate (p : Predicate) :
    render [.ofPredicate p] = "[" ++ p.render ++ "]" := by
  simp [render, renderRest, Segment.render, Segment.ofPredicate]

-- A selector is read again from its text if its key is a word and its floats are read from their own
-- texts, and in no other case.
theorem ofString_ofPredicate {p : Predicate} (h : p.Writable) :
    (p.Faithful → ofString (render [.ofPredicate p]) = .ok [.ofPredicate p]) ∧
    ∀ text, ofString (render [.ofPredicate p]) = .ok [.selector p text] → p.Faithful := by
  rw [render_ofPredicate]
  match p, h with
  | .compare key op v, h =>
    obtain ⟨hw, hs, hl⟩ := h
    have ht := Predicate.toList_render_compare key op v
    have hv := Literal.ofText_render_iff (Json.printable_of_scalar hw hs)
    refine ⟨fun ⟨hk, hp⟩ => ?read, fun text hp => ?faithful⟩
    case read =>
      refine ofString_selector ht ?_
      rw [predicate_render hk op hs hl, hv.mpr hp]
    case faithful =>
      obtain ⟨after, hp⟩ := exists_predicate_of_ofString ht hp
      have hk := isWord_of_predicate hp
      rw [predicate_render hk op hs hl] at hp
      simp only [Except.ok.injEq, Prod.mk.injEq, Predicate.compare.injEq, true_and] at hp
      exact ⟨hk, hv.mp hp.1⟩
  | .members ms, h =>
    have hprint := Json.printable_of_wellFormed _ h.1 h.2
    have ht := Predicate.toList_render_members ms
    obtain ⟨inner, e, hc⟩ := Predicate.exists_members_text hprint
    have ha : (Json.obj ms).render.toList ++ [']'] = '{' :: (inner ++ '}' :: [']']) := by simp [e]
    refine ⟨fun hp => ofString_selector ht ?read, fun text hp => ?faithful⟩
    case read =>
      have hr := e ▸ (Json.read?_render_iff hprint).mpr hp
      rw [ha, predicate_members hr (hc _)]
    case faithful =>
      obtain ⟨after, hp⟩ := exists_predicate_of_ofString ht hp
      rw [ha] at hp
      exact (Json.read?_render_iff hprint).mp (e ▸ read?_of_predicate_members (hc _) hp)

-- Quotes, brackets and parentheses in strings are no obstacle, and a space in a key is one.
theorem ofString_ofPredicate_quotes :
    let p := Predicate.compare "it" .ne (.str "\")'\\]")
    let q := Predicate.members [("a b", .arr [.obj [("'\x7d", .int (-1))]])]
    let r := Predicate.compare "a b" .eq (.int 1)
    ofString (render [.ofPredicate p]) = .ok [.ofPredicate p] ∧
      ofString (render [.ofPredicate q]) = .ok [.ofPredicate q] ∧
      ∀ text, ofString (render [.ofPredicate r]) ≠ .ok [.selector r text] := by
  intro p q r
  have hl : "\")'\\]".toList.all Quoted.isLegible = true := by decide
  have hw : "it".toList.all isWordChar = true := by decide
  have hp : p.Writable := ⟨trivial, rfl, fun s e => Json.str.inj e ▸ List.all_eq_true.mp hl⟩
  have hq : q.Writable := by
    refine ⟨?_, by decide⟩
    simp [Json.WellFormed, Json.WellFormedMembers, Json.WellFormedItems, Members.keys, Json.int]
  have hr : r.Writable :=
    ⟨by simp [Json.int, Json.WellFormed], rfl, fun s e => Json.noConfusion e⟩
  have hpf : p.Faithful := ⟨⟨by decide, List.all_eq_true.mp hw⟩, trivial⟩
  have hqf : q.Faithful := by
    simp [q, Predicate.Faithful, Json.Precise, Json.PreciseMembers, Json.PreciseItems, Json.int]
  refine ⟨(ofString_ofPredicate hp).1 hpf, (ofString_ofPredicate hq).1 hqf, fun text e => ?_⟩
  obtain ⟨⟨_, hk⟩, _⟩ := (ofString_ofPredicate hr).2 text e
  exact absurd (hk ' ' (by decide)) (by decide)

end Path

end JsonQuery
