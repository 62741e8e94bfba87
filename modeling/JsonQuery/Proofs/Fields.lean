import JsonQuery.Proofs.Accepted
import JsonQuery.Proofs.Recovering

namespace JsonQuery

namespace Outline

open Grammar

variable {text : List Char} {p q : Path} {v : Json}

theorem not_literal_of_parse (h : Path.parse text = .ok p) : .literal v ∉ p := by
  intro hm
  obtain ⟨o, ho, hr⟩ := Path.origin_of_mem_parse h hm
  cases ho with
  | concrete hs =>
    cases hr
    cases hs
  | call _ =>
    obtain ⟨_, _, e⟩ := map_eq_ok_iff.mp hr
    cases e
  | bracket hb =>
    cases hr
    cases isAddressable_of_bracket hb
  | children => cases hr
  | construct =>
    obtain ⟨_, _, e⟩ := map_eq_ok_iff.mp hr
    cases e

theorem fieldPath_scalar (hv : Json.read? text = some v) (hc : v.isContainer = false)
    (path : Except Error Path) : fieldPath text path = .ok [.literal v] := by
  have hf : (some v).filter (!·.isContainer) = some v := by simp [hc]
  simp only [fieldPath, hv, hf]

section

variable {e : Error} (hc : ∀ v, Json.read? text = some v → v.isContainer = true)

include hc

theorem filter_read? : (Json.read? text).filter (!·.isContainer) = none :=
  Option.filter_eq_none_iff.mpr fun v hv => by simp [hc v hv]

theorem fieldPath_singleQuoted (hs : Literal.singleQuoted? text ≠ none) (path : Except Error Path) :
    fieldPath text path = .ok [.literal (Literal.ofText text)] := by
  simp only [fieldPath, filter_read? hc, Option.isSome_iff_ne_none.mpr hs, if_true]

variable (hs : Literal.singleQuoted? text = none)

include hs

theorem fieldPath_ok (p : Path) : fieldPath text (.ok p) = .ok p := by
  simp only [fieldPath, filter_read? hc, hs, Option.isSome_none, Bool.false_eq_true, if_false]

theorem fieldPath_container (hv : Json.read? text = some v) (e : Error) :
    fieldPath text (.error e) = .ok [.literal v] := by
  have hf := filter_read? hc
  rw [hv] at hf
  simp only [fieldPath, hf, hs, hv, Option.isSome_none, Bool.false_eq_true, if_false]

theorem fieldPath_error (hv : Json.read? text = none) (e : Error) :
    fieldPath text (.error e) = .error e := by
  have hf := filter_read? hc
  rw [hv] at hf
  simp only [fieldPath, hf, hs, hv, Option.isSome_none, Bool.false_eq_true, if_false]

end

-- Where the path of a field comes from.
theorem fieldPath_eq_ok {path : Except Error Path} (h : fieldPath text path = .ok q) :
    (∃ v, Json.read? text = some v ∧ q = [.literal v]) ∨
      (Literal.singleQuoted? text ≠ none ∧ q = [.literal (Literal.ofText text)]) ∨
      Literal.singleQuoted? text = none ∧ path = .ok q := by
  by_cases hc : ∀ v, Json.read? text = some v → v.isContainer = true
  case neg =>
    obtain ⟨v, hv, hc⟩ : ∃ v, Json.read? text = some v ∧ v.isContainer = false := by simpa using hc
    rw [fieldPath_scalar hv hc] at h
    cases h
    exact .inl ⟨v, hv, rfl⟩
  case pos =>
    by_cases hs : Literal.singleQuoted? text = none
    case neg =>
      rw [fieldPath_singleQuoted hc hs] at h
      cases h
      exact .inr (.inl ⟨hs, rfl⟩)
    case pos =>
      cases path with
      | ok p =>
        rw [fieldPath_ok hc hs] at h
        cases h
        exact .inr (.inr ⟨hs, rfl⟩)
      | error e =>
        cases hv : Json.read? text with
        | some v =>
          rw [fieldPath_container hc hs hv] at h
          cases h
          exact .inl ⟨v, rfl, rfl⟩
        | none =>
          rw [fieldPath_error hc hs hv] at h
          cases h

-- A path is read as the path of a field unless its text is a scalar.
theorem fieldPath_path_iff (hq : ∀ v, .literal v ∉ q) (hs : Literal.singleQuoted? text = none) :
    fieldPath text (Path.parse text) = .ok q ↔
      (∀ v, Json.read? text = some v → v.isContainer = true) ∧ Path.parse text = .ok q := by
  by_cases hc : ∀ v, Json.read? text = some v → v.isContainer = true
  case neg =>
    obtain ⟨v, hv, hc'⟩ : ∃ v, Json.read? text = some v ∧ v.isContainer = false := by simpa using hc
    rw [fieldPath_scalar hv hc']
    refine iff_of_false (fun e => ?_) (fun h => hc h.1)
    cases e
    exact hq v List.mem_cons_self
  case pos =>
    rw [and_iff_right hc]
    cases hp : Path.parse text with
    | ok p => rw [fieldPath_ok hc hs]
    | error e =>
      cases hv : Json.read? text with
      | none => rw [fieldPath_error hc hs hv]
      | some v =>
        rw [fieldPath_container hc hs hv]
        refine iff_of_false (fun e => ?_) nofun
        cases e
        exact hq v List.mem_cons_self

-- A literal is read as the literal of a field unless it is a container with the text of a path.
theorem fieldPath_literal_iff (hs : Literal.singleQuoted? text = none) :
    fieldPath text (Path.parse text) = .ok [.literal v] ↔
      Json.read? text = some v ∧ (v.isContainer = true → ∀ p, Path.parse text ≠ .ok p) := by
  have hread : fieldPath text (Path.parse text) = .ok [.literal v] → Json.read? text = some v := by
    intro h
    rcases fieldPath_eq_ok h with ⟨w, hw, e⟩ | ⟨hs', _⟩ | ⟨_, hp⟩
    · cases e
      exact hw
    · exact absurd hs hs'
    · exact absurd List.mem_cons_self (not_literal_of_parse hp)
  by_cases hv : Json.read? text = some v
  case neg => exact iff_of_false (fun h => hv (hread h)) (fun h => hv h.1)
  case pos =>
    rw [and_iff_right hv]
    cases hc : v.isContainer with
    | false => exact iff_of_true (fieldPath_scalar hv hc _) nofun
    | true =>
      have hc' : ∀ w, Json.read? text = some w → w.isContainer = true := by
        intro w hw
        cases hv.symm.trans hw
        exact hc
      cases hp : Path.parse text with
      | error e => exact iff_of_true (fieldPath_container hc' hs hv e) (fun _ _ => nofun)
      | ok p =>
        rw [fieldPath_ok hc' hs]
        refine iff_of_false (fun e => ?_) (fun h => h rfl p rfl)
        cases e
        exact not_literal_of_parse hp List.mem_cons_self

end Outline

namespace Text

variable {text : List Char}

theorem endsVisibly_trimEnd (h : trimEnd text ≠ []) : Grammar.EndsVisibly (trimEnd text) := by
  rw [trimEnd] at h ⊢
  obtain ⟨c, cs, e⟩ := List.exists_cons_of_ne_nil (fun e => h (List.reverse_eq_nil_iff.mpr e))
  have hc : isBlank c = false := head?_dropWhile c (by rw [e]; rfl)
  exact ⟨cs.reverse, c, by rw [e, List.reverse_cons], hc⟩

theorem trim_eq_nil_or_visible (text : List Char) : trim text = [] ∨
    (∃ c cs, trim text = c :: cs ∧ isBlank c = false) ∧ Grammar.EndsVisibly (trim text) := by
  by_cases hn : trim text = []
  case pos => exact .inl hn
  case neg =>
    obtain ⟨c, cs, e⟩ := List.exists_cons_of_ne_nil hn
    obtain ⟨blanks, hb, _⟩ := trimEnd_append (trimStart text)
    have hc : isBlank c = false := by
      have hh : c ∈ (trimStart text).head? := by
        rw [hb, ← trim, e]
        rfl
      exact head?_dropWhile c hh
    exact .inr ⟨⟨c, cs, e, hc⟩, endsVisibly_trimEnd hn⟩

theorem trim_trim (text : List Char) : trim (trim text) = trim text := by
  rcases trim_eq_nil_or_visible text with h | ⟨⟨c, cs, hc, hb⟩, he⟩
  case inl =>
    rw [h]
    rfl
  case inr => exact trim_of_visible hc hb he

end Text

namespace Grammar

theorem visible_number (n : Number) : Visible n.text := by
  obtain ⟨taken, ht, hp⟩ := Lexeme.takes_of_read?_num n.read?_text_eq
  rw [List.append_nil] at ht
  have hv (c : Char) (hc : c ∈ n.text) : c ≠ '\'' ∧ Text.isBlank c = false := by
    have hc := hp c (ht ▸ hc)
    exact ⟨fun e => absurd (e ▸ hc) (by decide),
      isBlank_eq_false_of (p := Numeral.isPart) (by decide +kernel) hc⟩
  have hn : n.text ≠ [] := by
    intro e
    have h := n.read?_text_eq
    rw [e] at h
    cases h
  obtain ⟨c, cs, e⟩ := List.exists_cons_of_ne_nil hn
  have he : n.text = n.text.dropLast ++ [n.text.getLast hn] :=
    (List.dropLast_append_getLast hn).symm
  exact ⟨⟨c, cs, e, hv c (e ▸ List.mem_cons_self)⟩, ⟨_, _, he, (hv _ (List.getLast_mem hn)).2⟩⟩

theorem visible_render (v : Json) : Visible v.render.toList := by
  cases v with
  | null =>
    exact visible_enclosed (c := 'n') (d := 'l') (by decide) (by decide) (by decide) ['u', 'l']
  | bool b =>
    cases b with
    | true =>
      exact visible_enclosed (c := 't') (d := 'e') (by decide) (by decide) (by decide) ['r', 'u']
    | false =>
      exact visible_enclosed (c := 'f') (d := 'e') (by decide) (by decide) (by decide)
        ['a', 'l', 's']
  | num n =>
    have ht : (Json.num n).render.toList = n.text := by simp [Json.render, Json.write]
    exact ht ▸ visible_number n
  | str s =>
    have ht : (Json.str s).render.toList = '"' :: (s.toList.flatMap Json.escape ++ ['"']) := by
      simp [Json.render, Json.write, Json.toList_quoted]
    exact ht ▸ visible_enclosed (by decide) (by decide) (by decide) _
  | arr items =>
    cases items with
    | nil => exact visible_enclosed (c := '[') (d := ']') (by decide) (by decide) (by decide) []
    | cons x items =>
      have ht : (Json.arr (x :: items)).render.toList =
          '[' :: (x.render.toList ++ (Json.writeItems "" items).toList ++ [']']) := by
        simp [Json.toList_render_items]
      exact ht ▸ visible_enclosed (by decide) (by decide) (by decide) _
  | obj members =>
    cases members with
    | nil => exact visible_enclosed (c := '{') (d := '}') (by decide) (by decide) (by decide) []
    | cons m members =>
      obtain ⟨k, x⟩ := m
      have ht : (Json.obj ((k, x) :: members)).render.toList = '{' :: ((Json.quoted k).toList ++
          ':' :: (x.render.toList ++ (Json.writeMembers "" members).toList) ++ ['}']) := by
        simp [Json.toList_render_members]
      exact ht ▸ visible_enclosed (by decide) (by decide) (by decide) _

-- Whether a field is read again from its rendering, unless it is mistaken.
structure FieldRecovered (g : String × Path) : Prop where
  visible : Visible (Path.render g.2).toList
  recalls : Outline.readField (fieldOutline g) = .ok g ↔
    g.2.Unmistakable ∧ ∀ t ∈ Path.parts g.2, t.Unmistakable

theorem readField_fieldOutline_iff {g : String × Path} (h : Visible (Path.render g.2).toList) :
    Outline.readField (fieldOutline g) = .ok g ↔
      Outline.fieldPath (Path.render g.2).toList (Path.parse (Path.render g.2).toList) =
        .ok g.2 := by
  obtain ⟨name, q⟩ := g
  simp only [fieldOutline, Outline.readField, h.trim]
  cases Outline.fieldPath (Path.render q).toList (Path.parse (Path.render q).toList) <;>
    simp [Except.map]

theorem fieldRecovered_of_path {p : Path} (name : String) (h : ∀ s ∈ p, Recovered s)
    (hl : ∀ v, .literal v ∉ p) : FieldRecovered (name, p) where
  visible := visible_of_recovered h
  recalls := by
    have hv := visible_of_recovered h
    rw [readField_fieldOutline_iff hv, Outline.fieldPath_path_iff hl hv.singleQuoted?,
      Path.parse_render_iff h, Path.unmistakable_iff hl]

theorem toList_render_literal (v : Json) :
    (Path.render [.literal v]).toList = v.render.toList := by
  simp [Path.render, Path.renderRest, Segment.render]

theorem fieldRecovered_of_literal {v : Json} (name : String) (h : v.Printable Json.maxNesting) :
    FieldRecovered (name, [.literal v]) := by
  have ht := toList_render_literal v
  have hv : Visible (Path.render [.literal v]).toList := ht ▸ visible_render v
  have hp : ∀ t ∈ Path.parts [.literal v], t.Unmistakable := by
    simp [Path.parts, Segment.parts, Segment.Unmistakable]
  refine ⟨hv, ?_⟩
  rw [readField_fieldOutline_iff hv, and_iff_left hp]
  dsimp only
  rw [ht, Outline.fieldPath_literal_iff (ht ▸ hv.singleQuoted?), Json.read?_render_iff h]
  rfl

end Grammar

end JsonQuery
