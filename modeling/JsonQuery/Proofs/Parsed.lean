import JsonQuery.Path.Parser
import JsonQuery.Proofs.Run

namespace JsonQuery

-- A segment that is part of some expression.
def Segment.Parsed (s : Segment) : Prop := ∃ expression p, Path.ofString expression = .ok p ∧ s ∈ p

-- The segment that an outline stands for.
def Outline.read (o : Outline) : Except Error Segment := o.resolve fun inner _ => Path.parse inner

namespace Grammar

-- How the grammar comes to an outline.
inductive Origin : Outline → Prop
  | concrete {s : Segment} (h : s.isConcrete = true) : Origin (.ready s)
  | call {text name rest : List Char} {argument : Option (List Char)}
      (h : head text = .ok (some (.call name argument, rest))) : Origin (.call name argument)
  | bracket {text rest : List Char} {s : Segment} (h : bracket text = .ok (some (s, rest))) :
      Origin (.ready s)
  | children (optional : Bool) : Origin (.ready (.children optional))
  | construct (fields : List (String × Option (List Char))) : Origin (.construct fields)

variable {text rest : List Char} {s : Segment} {o : Outline}

theorem withMark_eq (s : Segment) (text : List Char) :
    (withMark s text).1 = s ∨ (withMark s text).1 = s.makeOptional := by
  unfold withMark
  split
  case _ => exact .inr rfl
  case _ => exact .inl rfl

theorem eq_selector_of_makeOptional {p : Predicate} {raw : String}
    (h : s.makeOptional = .selector p raw) : s = .selector p raw := by
  cases s <;> cases h
  rfl

theorem closeBracket_eq_ok {s' : Segment} (h : closeBracket s text = .ok (some (s', rest))) :
    s' = s ∨ s' = s.makeOptional := by
  unfold closeBracket at h
  split at h
  case _ r _ =>
    have hw : withMark s r = (s', rest) := Option.some.inj (Except.ok.inj h)
    have hs := withMark_eq s r
    rwa [hw] at hs
  case _ => cases h

-- What a bracket holds, or nothing, with or without a mark behind it.
theorem bracket_eq_ok (h : bracket text = .ok (some (s, rest))) :
    ∃ s', (s = s' ∨ s = s'.makeOptional) ∧
      (s' = .elements false ∨ ∃ text' rest', bracketBody text' = .ok (some (s', rest'))) := by
  unfold bracket at h
  split at h
  case _ r =>
    have ⟨found, hb, h⟩ := bind_eq_ok_iff.mp h
    split at h
    case _ s' r' => exact ⟨s', closeBracket_eq_ok h, .inr ⟨_, _, hb⟩⟩
    case _ => exact ⟨.elements false, closeBracket_eq_ok h, .inl rfl⟩
  case _ => cases h

theorem bracketBody_of_bracket {p : Predicate} {raw : String}
    (h : bracket text = .ok (some (.selector p raw, rest))) :
    ∃ text' rest', bracketBody text' = .ok (some (.selector p raw, rest')) := by
  have ⟨s', hs, hb⟩ := bracket_eq_ok h
  have hs : s' = .selector p raw := hs.elim Eq.symm fun hs => eq_selector_of_makeOptional hs.symm
  subst hs
  exact hb.elim (fun e => by cases e) id

theorem isAddressable_of_bracketBody (h : bracketBody text = .ok (some (s, rest))) :
    s.isAddressable = true := by
  unfold bracketBody at h
  split at h
  case _ =>
    have ⟨_, _, h⟩ := bind_eq_ok_iff.mp h
    cases h
    rfl
  case _ =>
    cases h
    rfl
  case _ =>
    split at h
    case _ =>
      cases h
      rfl
    case _ =>
      have ⟨_, _, h⟩ := bind_eq_ok_iff.mp h
      split at h
      case _ =>
        cases h
        rfl
      case _ =>
        have ⟨_, _, e⟩ := Option.map_eq_some_iff.mp (Except.ok.inj h)
        cases e
        rfl

theorem isAddressable_of_bracket (h : bracket text = .ok (some (s, rest))) :
    s.isAddressable = true := by
  have ⟨s', hs, hb⟩ := bracket_eq_ok h
  have ha : s'.isAddressable = true :=
    hb.elim (fun e => e ▸ rfl) fun ⟨_, _, hb⟩ => isAddressable_of_bracketBody hb
  cases hs
  case inl hs => exact hs ▸ ha
  case inr hs =>
    rw [hs]
    cases s' <;> first | rfl | cases ha

theorem origin_of_head (h : head text = .ok (some (o, rest))) : Origin o := by
  have hh := h
  unfold head at h
  split at h
  case _ name r _ =>
    have hc : (withMark (.key name false) r).1.isConcrete = true := by
      cases withMark_eq (.key name false) r with
      | inl hw => rw [hw]; rfl
      | inr hw => rw [hw]; rfl
    cases h
    exact .concrete hc
  case _ =>
    split at h
    case _ => cases h
    case _ word r _ =>
      split at h
      case isTrue =>
        split at h
        case _ =>
          split at h
          case _ => cases h; exact .call hh
          case _ => cases h
        case _ => cases h; exact .call hh
      case isFalse =>
        cases h
        refine .concrete ?_
        unfold Segment.ofWord
        split <;> rfl

theorem origin_of_brackets {found : List Segment} (h : brackets text = .ok (found, rest)) :
    ∀ s ∈ found, Origin (.ready s) := by
  fun_induction brackets text generalizing found rest with
  | case1 => cases h
  | case2 => cases h; simp
  | case3 text s r hb _ ih =>
    obtain ⟨⟨more, _⟩, hr, e⟩ := map_eq_ok_iff.mp h
    cases e
    exact List.forall_mem_cons.mpr ⟨.bracket hb, ih hr⟩

theorem origin_of_keyed {found : List Outline} (h : keyed text = .ok (some (found, rest))) :
    ∀ o ∈ found, Origin o := by
  have ⟨first, hf, h⟩ := bind_eq_ok_iff.mp h
  cases first with
  | none =>
    have ⟨⟨more, after⟩, hb, h⟩ := bind_eq_ok_iff.mp h
    dsimp only at h
    split at h <;> cases h
    exact List.forall_mem_map.mpr (origin_of_brackets hb)
  | some first =>
    have ⟨⟨more, after⟩, hb, h⟩ := bind_eq_ok_iff.mp h
    dsimp only at h
    split at h <;> cases h
    exact List.forall_mem_cons.mpr
      ⟨origin_of_head hf, List.forall_mem_map.mpr (origin_of_brackets hb)⟩

theorem origin_of_construct (h : construct text = .ok (o, rest)) : Origin o := by
  simp only [construct] at h
  split at h <;> cases h
  exact .construct _

theorem origin_of_segment {found : List Outline} (h : segment text = .ok (some (found, rest))) :
    ∀ o ∈ found, Origin o := by
  unfold segment at h
  split at h
  case _ r =>
    have ⟨⟨o, _⟩, hc, e⟩ := map_eq_ok_iff.mp h
    cases e
    exact List.forall_mem_singleton.mpr (origin_of_construct hc)
  case _ r =>
    have ho : Origin (.ready (withMark (.children false) r).1) := by
      cases withMark_eq (.children false) r with
      | inl hw => exact hw.symm ▸ .children false
      | inr hw => exact hw.symm ▸ .children true
    cases h
    exact List.forall_mem_singleton.mpr ho
  case _ => exact origin_of_keyed h

theorem origin_of_more {found : List Outline} (h : more text = .ok (found, rest)) :
    ∀ o ∈ found, Origin o := by
  fun_induction more text generalizing found rest with
  | case1 => cases h
  | case2 => cases h; simp
  | case3 text first r hs _ ih =>
    obtain ⟨⟨others, _⟩, hr, e⟩ := map_eq_ok_iff.mp h
    cases e
    exact List.forall_mem_append.mpr ⟨origin_of_segment hs, ih hr⟩

theorem origin_of_outline {found : List Outline} (h : outline text = .ok found) :
    ∀ o ∈ found, Origin o := by
  have ⟨first, hf, h⟩ := bind_eq_ok_iff.mp h
  cases first with
  | none => cases h
  | some first =>
    have ⟨⟨others, after⟩, hm, h⟩ := bind_eq_ok_iff.mp h
    dsimp only at h
    split at h <;> cases h
    exact List.forall_mem_append.mpr ⟨origin_of_segment hf, origin_of_more hm⟩

end Grammar

namespace Path

theorem parse_eq (text : List Char) : parse text =
    if Text.trim text = [] ∨ Text.trim text = ['.'] then .ok []
    else
      match Grammar.outline (Text.trim text) with
      | .error e      => .error (.malformed (Text.trim text) e)
      | .ok outlines => outlines.mapM Outline.read := by
  rw [parse]
  split
  case isTrue => rfl
  case isFalse =>
    split
    case _ e he => rw [he]
    case _ outlines ho =>
      calc
        _ = outlines.attach.mapM fun o => o.val.read := rfl
        _ = (outlines.attach.map Subtype.val).mapM Outline.read :=
          (List.mapM_map (f := Subtype.val) (g := Outline.read)).symm
        _ = outlines.mapM Outline.read := by rw [List.attach_map_subtype_val]
        _ = _ := by rw [ho]

theorem origin_of_mem_parse {text : List Char} {p : Path} {s : Segment} (h : parse text = .ok p)
    (hs : s ∈ p) : ∃ o, Grammar.Origin o ∧ o.read = .ok s := by
  rw [parse_eq] at h
  split at h
  case isTrue =>
    cases h
    cases hs
  case isFalse =>
    split at h
    case _ => cases h
    case _ outlines ho =>
      have ⟨o, hm, hr⟩ := mem_of_mapM_eq_ok h s hs
      exact ⟨o, Grammar.origin_of_outline ho o hm, hr⟩

end Path

namespace Segment.Parsed

variable {p : Predicate} {f : Builtin} {raw : String}

theorem origin {s : Segment} (h : s.Parsed) : ∃ o, Grammar.Origin o ∧ o.read = .ok s :=
  have ⟨_, _, hp, hs⟩ := h
  Path.origin_of_mem_parse hp hs

-- A selector was read between brackets.
theorem selector (h : Parsed (.selector p raw)) :
    ∃ text rest, Grammar.bracketBody text = .ok (some (.selector p raw, rest)) := by
  have ⟨o, ho, hr⟩ := h.origin
  cases ho with
  | concrete hs =>
    cases hr
    cases hs
  | call _ =>
    have ⟨_, _, e⟩ := map_eq_ok_iff.mp hr
    cases e
  | bracket hb =>
    cases hr
    exact Grammar.bracketBody_of_bracket hb
  | children => cases hr
  | construct =>
    have ⟨_, _, e⟩ := map_eq_ok_iff.mp hr
    cases e

-- A call was read from a name and perhaps an argument.
theorem call (h : Parsed (.call f raw)) : ∃ text name argument rest,
    Grammar.head text = .ok (some (.call name argument, rest)) ∧
      Outline.read (.call name argument) = .ok (.call f raw) := by
  have ⟨o, ho, hr⟩ := h.origin
  cases ho with
  | concrete hs =>
    cases hr
    cases hs
  | call hh => exact ⟨_, _, _, _, hh, hr⟩
  | bracket hb =>
    cases hr
    cases Grammar.isAddressable_of_bracket hb
  | children => cases hr
  | construct =>
    have ⟨_, _, e⟩ := map_eq_ok_iff.mp hr
    cases e

end Segment.Parsed

end JsonQuery
