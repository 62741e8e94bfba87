import JsonQuery.Proofs.Delimiting

namespace JsonQuery

open JsonQuery.Balanced

variable {text name : List Char} {v : Json} {s : Segment}

namespace Grammar

-- A call with the text of a document as its argument.
theorem segment_call (hn : name ≠ []) (hw : ∀ c ∈ name, isWordChar c = true)
    (hname : Builtin.isName (String.ofList name) = true) (h : Json.read? text = some v) :
    segment (name ++ '(' :: (text ++ [')'])) = .ok (some ([.call name (some text)], [])) := by
  have hp : ∀ c ∈ ('(' :: (text ++ [')'])).head?, isWordChar c = false := by simp; decide
  have hword := word?_eq_some_iff.mpr ⟨rfl, hn, hw, hp⟩
  have hhead := head_argument hword hname (Json.cut?_of_read? h [])
  have hk := keyed_of_head hhead brackets_nil
  obtain ⟨c, cs, rfl⟩ := List.exists_cons_of_ne_nil hn
  have hc := hw c List.mem_cons_self
  have hbrace : c ≠ '\x7b' := fun e => absurd (e ▸ hc) (by decide)
  have hstar : c ≠ '*' := fun e => absurd (e ▸ hc) (by decide)
  rw [List.cons_append, segment_eq_keyed hbrace hstar]
  exact hk

end Grammar

namespace Grammar

variable {inner after : List Char} {ms : List (String × Json)}

theorem predicate_members (h : Json.read? ('{' :: (inner ++ ['}'])) = some (.obj ms))
    (hc : cut? ['}'] 0 none (inner ++ '}' :: after) = some (inner, '}' :: after)) :
    predicate ('{' :: (inner ++ '}' :: after)) = .ok (.members ms, after) := by
  have hn : compare? ('{' :: (inner ++ '}' :: after)) = none := rfl
  simp only [predicate, hn, hc, List.cons_append, h]
  rfl

-- A selector keeps its text.
theorem bracket_of_predicate {taken : List Char} {p : Predicate}
    (h : predicate (taken ++ [']']) = .ok (p, [']'])) :
    bracket ('[' :: (('?' :: taken) ++ [']'])) =
      .ok (some (.selector p (String.ofList ('?' :: taken)), [])) := by
  have hb : bracketBody (('?' :: taken) ++ [']']) =
      .ok (some (.selector p (String.ofList ('?' :: taken)), [']'])) := by
    rw [List.cons_append, bracketBody, h]
    simp only [bind, Except.bind, ← List.cons_append, consumed_append]
    rfl
  exact bracket_of_body rfl hb

end Grammar

namespace Path

open Grammar

theorem trim_bracketed (inner : List Char) :
    Text.trim ('[' :: (inner ++ [']'])) = '[' :: (inner ++ [']']) :=
  Text.trim_of_visible rfl (by decide) ⟨'[' :: inner, ']', rfl, by decide⟩

-- A path of a single segment in brackets.
theorem parse_bracket {inner : List Char}
    (hb : bracket ('[' :: (inner ++ [']'])) = .ok (some (s, []))) :
    parse ('[' :: (inner ++ [']'])) = .ok [s] := by
  have hbs := brackets_of_bracket hb
  rw [brackets_nil] at hbs
  have hk : Grammar.segment (dropDot ('[' :: (inner ++ [']']))) = .ok (some ([.ready s], [])) :=
    (segment_eq_keyed (by decide) (by decide) _).trans (keyed_of_brackets rfl hbs)
  exact parse_of_segment (trim_bracketed inner) (by simp) hk (tells_ready [s])

theorem parse_call (hn : name ≠ []) (hw : ∀ c ∈ name, isWordChar c = true)
    (hname : Builtin.isName (String.ofList name) = true) (h : Json.read? text = some v)
    (hs : Outline.read (.call name (some text)) = .ok s) :
    parse (name ++ '(' :: (text ++ [')'])) = .ok [s] := by
  have hseg := segment_call hn hw hname h
  obtain ⟨c, cs, rfl⟩ := List.exists_cons_of_ne_nil hn
  have hc := hw c List.mem_cons_self
  have hdot : c ≠ '.' := fun e => absurd (e ▸ hc) (by decide)
  have hd : dropDot (c :: cs ++ '(' :: (text ++ [')'])) = c :: cs ++ '(' :: (text ++ [')']) := by
    simp [dropDot, hdot]
  have hends : EndsVisibly (c :: cs ++ '(' :: (text ++ [')'])) :=
    ⟨c :: cs ++ '(' :: text, ')', by simp, by decide⟩
  have ht := Text.trim_of_visible rfl (isBlank_of_isWordChar hc) hends
  exact parse_of_segment ht (by simp [hdot]) (hd.symm ▸ hseg) (.cons hs (tells_ready []))

end Path

namespace Literal

theorem ofText_eq_of_read? (h : Json.read? text = some v) : ofText text = v :=
  ofText_of_read? (Json.read?_trim h)

theorem stringOfText_of_read? {s : String} (h : Json.read? text = some (.str s)) :
    stringOfText text = s := by
  have hn : Text.trim text ≠ [] := Json.ne_nil_of_read? (Json.read?_trim h)
  simp [stringOfText, hn, ofText_eq_of_read? h]

end Literal

namespace Builtin

variable {f : Builtin}
  {parse : (inner : List Char) → inner.length ≤ text.length → Except Error Path}

theorem required_of_read? (h : Json.read? text = some v) (name : String) :
    required name (some text) = .ok text := by
  obtain ⟨c, rest, rfl⟩ := List.exists_cons_of_ne_nil (Json.ne_nil_of_read? h)
  rfl

theorem ofCall_value (h : Json.read? text = some v) (hf : f ∈ [has v, contains v]) :
    ofCall f.name (some text) parse = .ok f := by
  have hv := Literal.ofText_eq_of_read? h
  have hr := required_of_read? h
  simp only [List.mem_cons, List.not_mem_nil, or_false] at hf
  rcases hf with rfl | rfl <;> simp [name, ofCall, plain, Members.get?, hr, hv, Except.map]

theorem ofCall_string {s : String} (h : Json.read? text = some (.str s))
    (hf : f ∈ [split s, join s, startsWith s, endsWith s]) :
    ofCall f.name (some text) parse = .ok f := by
  have hv := Literal.stringOfText_of_read? h
  have hr := required_of_read? h
  simp only [List.mem_cons, List.not_mem_nil, or_false] at hf
  rcases hf with rfl | rfl | rfl | rfl <;>
    simp [name, ofCall, plain, Members.get?, hr, hv, Except.map]

theorem name_mem_names (f : Builtin) : f.name ∈ names := by
  cases f <;> simp [name, names]

-- Every function is named by a word.
theorem isWord_of_mem_names {word : String} (h : word ∈ names) :
    word.toList ≠ [] ∧ ∀ c ∈ word.toList, isWordChar c = true := by
  have hall : names.all (fun w => !w.toList.isEmpty && w.toList.all isWordChar) = true := by
    decide
  simpa using List.all_eq_true.mp hall word h

end Builtin

theorem Outline.read_call (name : List Char) (argument : Option (List Char)) :
    read (.call name argument) =
      (Builtin.ofCall (String.ofList name) argument fun inner _ => Path.parse inner).map
        (.call · (callText name argument)) :=
  rfl

namespace Path

open Grammar

variable {f : Builtin}

-- A function is called with the text of a document whenever it takes this text alone.
theorem ofString_call {X : String} (h : Json.read? X.toList = some v)
    (hf : ∀ parse, Builtin.ofCall f.name (some X.toList) parse = .ok f) :
    ofString (f.name ++ "(" ++ X ++ ")") = .ok [.call f (f.name ++ "(" ++ X ++ ")")] := by
  obtain ⟨hn, hw⟩ := Builtin.isWord_of_mem_names f.name_mem_names
  have hname : Builtin.isName (String.ofList f.name.toList) = true := by
    simpa [Builtin.isName] using f.name_mem_names
  have hc : Outline.callText f.name.toList (some X.toList) = f.name ++ "(" ++ X ++ ")" := by
    simp [Outline.callText, ← String.toList_inj]
  have hs : Outline.read (.call f.name.toList (some X.toList)) =
      .ok (.call f (f.name ++ "(" ++ X ++ ")")) := by
    rw [Outline.read_call, String.ofList_toList, hf, hc]
    rfl
  rw [ofString, ← parse_call hn hw hname h hs]
  simp

-- The text of an object is a selector for objects with its members.
theorem ofString_members {X : String} (h : Json.read? X.toList = some v)
    (hf : X.toList.head? = some '{') (hl : X.toList.getLast? = some '}') :
    ∃ ms, v = .obj ms ∧ ofString ("[?" ++ X ++ "]") = .ok [.selector (.members ms) ("?" ++ X)] := by
  obtain ⟨inner, ms, e, rfl, hc⟩ := Json.exists_inner_of_read? h hf hl
  refine ⟨ms, rfl, ?_⟩
  have hp : predicate (X.toList ++ [']']) = .ok (.members ms, [']']) := by
    rw [e]
    simpa using predicate_members (e ▸ h) (hc [']'])
  have ht : ("[?" ++ X ++ "]").toList = '[' :: (('?' :: X.toList) ++ [']']) := by simp
  have hraw : String.ofList ('?' :: X.toList) = "?" ++ X := by simp
  rw [ofString, ht, parse_bracket (bracket_of_predicate hp), hraw]

end Path

namespace Grammar

variable {c : Char} {k : List Char} {field : String}

-- The text of a document in a construct is cut off at the comma or the brace behind it, without the
-- spaces around it.
theorem fieldValue?_of_read? (h : Json.read? text = some v) (hc : c ∈ fieldStops)
    (rest : List Char) :
    fieldValue? (skipSpace (text ++ c :: rest)) = some (Text.trim text, c :: rest) := by
  have hs := Json.read?_skipSpace h
  have hq : isQuote c = false ∧ opens c = false := by
    have hc : c = ',' ∨ c = '}' := by simpa [fieldStops] using hc
    rcases hc with rfl | rfl <;> exact ⟨rfl, rfl⟩
  have hcut : cut? [',', '}'] 0 none (skipSpace text ++ c :: rest) =
      some (skipSpace text, c :: rest) :=
    cut?_of_run? (Json.neutral_of_read? hs 0) hc hq.1 hq.2
  have ht := Json.trim_of_read? h
  have hn : Text.trim text ≠ [] := Json.ne_nil_of_read? (Json.read?_trim h)
  rw [skipSpace_append (Json.ne_nil_of_read? hs)]
  simp [fieldValue?, hcut, ← ht, hn]

theorem name?_append (h : name? k = some (field, [])) (rest : List Char)
    (hr : ∀ c ∈ rest.head?, isWordChar c = false) : name? (k ++ rest) = some (field, rest) := by
  unfold name? at h
  split at h
  case _ found hq =>
    cases h
    obtain ⟨taken, e, hs⟩ := Quoted.read?_append hq
    rw [List.append_nil] at e
    subst e
    rw [name?, hs]
  case _ =>
    obtain ⟨⟨word, _⟩, hw, e⟩ := Option.map_eq_some_iff.mp h
    cases e
    obtain ⟨e, hn, hw, _⟩ := word?_eq_some_iff.mp hw
    rw [List.append_nil] at e
    subst e
    have hword := word?_eq_some_iff.mpr ⟨rfl, hn, hw, hr⟩
    rw [name?, read?_of_word? hword, hword]
    rfl

-- A name does not start with a space.
theorem skipSpace_name (h : name? k = some (field, [])) (rest : List Char) :
    skipSpace (k ++ rest) = k ++ rest := by
  cases k with
  | nil => cases h
  | cons c k =>
    refine skipSpace_cons (Bool.eq_false_iff.mpr fun hs => ?_) _
    rcases Lexeme.isSpace_cases hs with rfl | rfl | rfl | rfl <;> cases h

-- A construct with one field, whose path is written as the text of a document.
theorem construct_of_read? (hk : name? k = some (field, [])) (h : Json.read? text = some v) :
    construct (k ++ ':' :: ' ' :: (text ++ ['}'])) =
      .ok (.construct [(field, some (Text.trim text))], []) := by
  have hvalue := fieldValue?_of_read? (c := '}') h (by decide) []
  have hname := name?_append hk (':' :: ' ' :: (text ++ ['}'])) (by simp; decide)
  have hspace : skipSpace (' ' :: (text ++ ['}'])) = skipSpace (text ++ ['}']) := rfl
  have hf : field? (k ++ ':' :: ' ' :: (text ++ ['}'])) =
      some ((field, some (Text.trim text)), ['}']) := by
    rw [field?, hname, Option.map_some]
    simp only [skipSpace_cons (c := ':') rfl, hspace, hvalue]
  have hm : moreFields ['}'] = ([], ['}']) := moreFields_of_none rfl
  have hb : skipSpace ['}'] = ['}'] := rfl
  simp only [construct, skipSpace_name hk, fields, hf, hm, hb]

end Grammar

namespace Path

open Grammar

-- The text of a scalar is the literal of a field.
theorem ofString_field {X k field : String} (h : Json.read? X.toList = some v)
    (hv : v.isContainer = false) (hk : name? k.toList = some (field, [])) :
    ofString ("\x7b" ++ k ++ ": " ++ X ++ "\x7d") = .ok [.construct [(field, [.literal v])]] := by
  have hseg : Grammar.segment ('{' :: (k.toList ++ ':' :: ' ' :: (X.toList ++ ['}']))) =
      .ok (some ([.construct [(field, some (Text.trim X.toList))]], [])) := by
    rw [Grammar.segment, construct_of_read? hk h]
    rfl
  have hread : Outline.read (.construct [(field, some (Text.trim X.toList))]) =
      .ok (.construct [(field, [.literal v])]) := by
    have hp : Outline.readField (field, some (Text.trim X.toList)) = .ok (field, [.literal v]) := by
      rw [Outline.readField, Text.trim_trim, Outline.fieldPath_scalar (Json.read?_trim h) hv]
      rfl
    rw [Outline.read_construct, List.mapM_cons, hp]
    rfl
  have ht : ("\x7b" ++ k ++ ": " ++ X ++ "\x7d").toList =
      '{' :: (k.toList ++ ':' :: ' ' :: (X.toList ++ ['}'])) := by
    simp
  have htrim := Text.trim_of_visible ht (by decide)
    ⟨'{' :: (k.toList ++ ':' :: ' ' :: X.toList), '}', by simp, by decide⟩
  rw [ht] at htrim
  rw [ofString, ht]
  exact parse_of_segment htrim (by simp) hseg (.cons hread (tells_ready []))

-- The text of a document keeps its meaning wherever an expression takes one.
theorem ofString_embedded {X : String} (h : Json.read? X.toList = some v) :
    (∀ f ∈ [Builtin.has v, .contains v],
      ofString (f.name ++ "(" ++ X ++ ")") = .ok [.call f (f.name ++ "(" ++ X ++ ")")]) ∧
    (∀ s, v = .str s → ∀ f ∈ [Builtin.split s, .join s, .startsWith s, .endsWith s],
      ofString (f.name ++ "(" ++ X ++ ")") = .ok [.call f (f.name ++ "(" ++ X ++ ")")]) ∧
    (v.isContainer = false → ∀ k field : String, name? k.toList = some (field, []) →
      ofString ("\x7b" ++ k ++ ": " ++ X ++ "\x7d") = .ok [.construct [(field, [.literal v])]]) ∧
    (X.toList.head? = some '{' → X.toList.getLast? = some '}' → ∃ ms, v = .obj ms ∧
      ofString ("[?" ++ X ++ "]") = .ok [.selector (.members ms) ("?" ++ X)]) := by
  refine ⟨fun f hf => ?value, fun s hs f hf => ?string,
    fun hv k field hk => ofString_field h hv hk, fun hf hl => ofString_members h hf hl⟩
  case value => exact ofString_call h fun _ => Builtin.ofCall_value h hf
  case string =>
    subst hs
    exact ofString_call h fun _ => Builtin.ofCall_string h hf

theorem ofString_embedded_nested :
    let s := "\")'],\x7d"
    let ms := [("a)", Json.arr [.str "\x7d]", .obj []]), ("'", .null)]
    ofString "split( \"\\\")'],\x7d\")" = .ok [.call (.split s) "split( \"\\\")'],\x7d\")"] ∧
      ofString "\x7bk:  \"\\\")'],\x7d\"\x7d" = .ok [.construct [("k", [.literal (.str s)])]] ∧
      ofString "[?\x7b\"a)\": [\"\x7d]\", \x7b\x7d], \"'\": null\x7d]" =
        .ok [.selector (.members ms) "?\x7b\"a)\": [\"\x7d]\", \x7b\x7d], \"'\": null\x7d"] := by
  intro s ms
  have hs : Json.read? " \"\\\")'],\x7d\"".toList = some (.str s) := by decide +kernel
  have hms : Json.read? "\x7b\"a)\": [\"\x7d]\", \x7b\x7d], \"'\": null\x7d".toList =
      some (.obj ms) := by decide +kernel
  obtain ⟨_, hcall, hfield, _⟩ := ofString_embedded hs
  obtain ⟨_, _, _, hmembers⟩ := ofString_embedded hms
  obtain ⟨_, e, hmembers⟩ := hmembers (by decide) (by decide)
  cases e
  have hk : name? "k".toList = some ("k", []) := by decide
  exact ⟨hcall s rfl (.split s) List.mem_cons_self, hfield rfl "k" "k" hk, hmembers⟩

end Path

end JsonQuery
