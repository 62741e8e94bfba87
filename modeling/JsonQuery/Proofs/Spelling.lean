import JsonQuery.Proofs.Passing

namespace JsonQuery

open JsonQuery.Balanced

-- Whether all strings in the text of a segment are closed.
def Segment.Tidy : Segment → Prop
  | .selector _ text => Closes text.toList
  | _ => True

namespace Grammar

variable {text rest : List Char} {s : Segment}

-- What is read between brackets is a selector with its text, or a scan passes it.
theorem spelled_bracketBody (h : bracketBody text = .ok (some (s, rest))) :
    (∃ p raw, s = .selector p raw ∧ text = raw.toList ++ rest) ∨
      s.isSelector = false ∧ Passes text rest ∧ s.Sized := by
  unfold bracketBody at h
  split at h
  case _ r =>
    obtain ⟨⟨p, after⟩, hp, e⟩ := bind_eq_ok_iff.mp h
    cases e
    obtain ⟨taken, ht, _⟩ := predicate_append hp
    refine .inl ⟨p, _, rfl, ?_⟩
    rw [ht, String.toList_ofList, ← List.cons_append, consumed_append]
  case _ =>
    cases h
    exact .inr ⟨rfl, passes_char (by decide) _, trivial⟩
  case _ =>
    split at h
    case _ name after hq =>
      cases h
      exact .inr ⟨rfl, Quoted.passes_of_read? hq, trivial⟩
    case _ =>
      obtain ⟨found, hs, h⟩ := bind_eq_ok_iff.mp h
      split at h
      case _ sl after =>
        cases h
        obtain ⟨hp, hz⟩ := passes_of_slice hs
        exact .inr ⟨rfl, hp, hz⟩
      case _ =>
        obtain ⟨⟨i, after⟩, hi, e⟩ := Option.map_eq_some_iff.mp (Except.ok.inj h)
        cases e
        obtain ⟨hp, hz⟩ := passes_of_integer? hi
        exact .inr ⟨rfl, hp, hz⟩

theorem spelled_closeBracket {s' : Segment} (h : closeBracket s text = .ok (some (s', rest))) :
    ∃ r, Passes text (']' :: r) ∧ Passes r rest ∧ (s' = s ∨ s' = s.makeOptional) := by
  have hs := closeBracket_eq_ok h
  unfold closeBracket at h
  split at h
  case _ r hr =>
    have hw : withMark s r = (s', rest) := Option.some.inj (Except.ok.inj h)
    have hp := passes_withMark s r
    rw [hw] at hp
    exact ⟨r, hr ▸ passes_skipSpace text, hp, hs⟩
  case _ => cases h

end Grammar

-- Whether a text is one way to write a segment: its rendering can stand in the place of the text.
structure Segment.Spelled (s : Segment) (taken : List Char) : Prop where
  covers : s.Tidy → Covers taken s.render.toList
  sized  : s.Sized

theorem Segment.spelled_of_neutral {s : Segment} {taken : List Char} (hn : Neutral taken)
    (ha : s.isAddressable = true) (hs : s.isSelector = false) (hz : s.Sized) : s.Spelled taken where
  covers _ := hn.covers (neutral_render ha hs)
  sized    := hz

namespace Grammar

variable {text rest : List Char} {s : Segment}

theorem isSelector_makeOptional (s : Segment) : s.makeOptional.isSelector = s.isSelector := by
  cases s <;> rfl

theorem sized_makeOptional {s : Segment} (h : s.Sized) : s.makeOptional.Sized := by
  cases s <;> exact h

-- A segment between brackets, with spaces around it and perhaps a mark behind it.
theorem spelled_bracketed {s' : Segment} {spaces body spaces' mark : List Char}
    (hspaces : Neutral spaces) (hspaces' : Neutral spaces') (hmark : Neutral mark)
    (ha : s.isAddressable = true) (hs : s = s' ∨ s = s'.makeOptional)
    (hb : (∃ p raw, s' = .selector p raw ∧ body = raw.toList) ∨
      s'.isSelector = false ∧ Neutral body ∧ s'.Sized) :
    s.Spelled ('[' :: (spaces ++ body ++ spaces') ++ [']'] ++ mark) := by
  cases hb
  case inl hb =>
    obtain ⟨p, raw, rfl, rfl⟩ := hb
    have hs : s = .selector p raw := hs.elim id id
    subst hs
    refine ⟨fun ht => ?_, trivial⟩
    have hraw : Covers (spaces ++ raw.toList ++ spaces') raw.toList := by
      have hp := (hspaces.covers neutral_nil).append (covers_self ht)
      simpa using hp.append (hspaces'.covers neutral_nil)
    have hc := (covers_enclosed (c := '[') (d := ']') hraw rfl rfl).append
      (hmark.covers neutral_nil)
    simpa [Segment.render] using hc
  case inr hb =>
    obtain ⟨hsel, hbody, hz⟩ := hb
    have hn : Neutral ('[' :: (spaces ++ body ++ spaces') ++ [']'] ++ mark) :=
      (neutral_enclosed rfl rfl ((hspaces.append hbody).append hspaces')).append hmark
    rcases hs with rfl | rfl
    case inl => exact Segment.spelled_of_neutral hn ha hsel hz
    case inr =>
      have hsel' := (isSelector_makeOptional s').trans hsel
      exact Segment.spelled_of_neutral hn ha hsel' (sized_makeOptional hz)

theorem spelled_bracket (h : bracket text = .ok (some (s, rest))) :
    ∃ taken, text = taken ++ rest ∧ s.Spelled taken := by
  have ha := isAddressable_of_bracket h
  unfold bracket at h
  split at h
  case _ r =>
    obtain ⟨spaces, hr, hspaces⟩ := passes_skipSpace r
    obtain ⟨found, hb, h⟩ := bind_eq_ok_iff.mp h
    split at h
    case _ s' after =>
      obtain ⟨r', ⟨spaces', hr', hspaces'⟩, ⟨mark, hmark, hm⟩, hs⟩ := spelled_closeBracket h
      obtain ⟨body, hbody, hsp⟩ : ∃ body, skipSpace r = body ++ after ∧
          ((∃ p raw, s' = .selector p raw ∧ body = raw.toList) ∨
            s'.isSelector = false ∧ Neutral body ∧ s'.Sized) := by
        rcases spelled_bracketBody hb with ⟨p, raw, e, ht⟩ | ⟨hsel, ⟨body, ht, hn⟩, hz⟩
        case inl => exact ⟨raw.toList, ht, .inl ⟨p, raw, e, rfl⟩⟩
        case inr => exact ⟨body, ht, .inr ⟨hsel, hn, hz⟩⟩
      refine ⟨_, ?_, spelled_bracketed hspaces hspaces' hm ha hs hsp⟩
      rw [hr, hbody, hr', hmark]
      simp
    case _ =>
      obtain ⟨r', ⟨spaces', hr', hspaces'⟩, ⟨mark, hmark, hm⟩, hs⟩ := spelled_closeBracket h
      have hsp := spelled_bracketed hspaces hspaces' hm ha hs (.inr ⟨rfl, neutral_nil, trivial⟩)
      refine ⟨_, ?_, hsp⟩
      rw [hr, hr', hmark]
      simp
  case _ => cases h

end Grammar

namespace Outline

-- The path of a field of a construct.
def readField : String × Option (List Char) → Except Error (String × Path)
  | (name, none)      => .ok (name, [.key name false])
  | (name, some text) => (fieldPath (Text.trim text) (Path.parse (Text.trim text))).map (name, ·)

theorem resolveFields_eq {n : Nat} (fields : List (String × Option (List Char)))
    (h : ∀ f ∈ fields, (f.2.getD []).length ≤ n) :
    resolveFields (fun inner _ => Path.parse inner) fields h = fields.mapM readField := by
  induction fields with
  | nil => rfl
  | cons f rest ih =>
    obtain ⟨name, _ | text⟩ := f
    case none =>
      rw [resolveFields, List.mapM_cons, ih]
      rfl
    case some =>
      rw [resolveFields, List.mapM_cons, ih]
      simp only [readField]
      cases fieldPath (Text.trim text) (Path.parse (Text.trim text)) <;> rfl

theorem read_construct (fields : List (String × Option (List Char))) :
    read (.construct fields) = (fields.mapM readField).map .construct := by
  rw [read, resolve, resolveFields_eq]

-- Whether the rendering of a path can stand in the place of the text of its field.
def TidyField (f : String × Option (List Char)) : Prop := ∀ text q, f.2 = some text →
  readField f = .ok (f.1, q) → Covers (Text.trim text) (Path.render q).toList

-- Whether the strings of an outline are closed.
def Tidy : Outline → Prop
  | ready s          => s.Tidy
  | call ..          => True
  | construct fields => ∀ f ∈ fields, TidyField f

-- Whether a cut takes the text of a field as a whole.
def WholeField (f : String × Option (List Char)) : Prop := ∀ text, f.2 = some text →
  ∃ inner, text = Text.trimEnd inner ∧ scan? 0 inner = some ⟨0, .outside⟩

-- What is true of every outline that the grammar finds.
def Lawful : Outline → Prop
  | ready s          => s.Sized
  | call ..          => True
  | construct fields => ∀ f ∈ fields, WholeField f

structure Spelled (o : Outline) (taken : List Char) : Prop where
  covers : ∀ s, o.read = .ok s → o.Tidy → Covers taken s.render.toList
  lawful : o.Lawful

theorem spelled_ready {s : Segment} {taken : List Char} (h : s.Spelled taken) :
    (ready s).Spelled taken where
  covers t ht hs := by
    cases ht
    exact h.covers hs
  lawful := h.sized

theorem spelled_call {name taken : List Char} {argument : Option (List Char)}
    (ht : taken = (callText name argument).toList) (hc : Closes taken) :
    (call name argument).Spelled taken where
  covers s hs _ := by
    obtain ⟨f, _, e⟩ := map_eq_ok_iff.mp hs
    cases e
    rw [Segment.render, ← ht]
    exact covers_self hc
  lawful := trivial

end Outline

namespace Grammar

variable {text rest : List Char} {s : Segment} {o : Outline}

theorem spelled_head (h : head text = .ok (some (o, rest))) :
    ∃ taken, text = taken ++ rest ∧ o.Spelled taken := by
  unfold head at h
  split at h
  case _ name r hq =>
    cases h
    obtain ⟨taken, ht, hn⟩ := (Quoted.passes_of_read? hq).trans
      (passes_withMark (.key name false) r)
    have hs : (withMark (.key name false) r).1.Spelled taken := by
      rcases withMark_eq (.key name false) r with e | e
      all_goals
        rw [e]
        exact Segment.spelled_of_neutral hn rfl rfl trivial
    exact ⟨taken, ht, Outline.spelled_ready hs⟩
  case _ =>
    split at h
    case _ => cases h
    case _ word r hw =>
      obtain ⟨ht, hn, hwc, _⟩ := word?_eq_some_iff.mp hw
      split at h
      case isTrue hname =>
        split at h
        case _ r =>
          split at h
          case _ argument after hcut =>
            obtain ⟨c, after', e, hc⟩ := head_of_cut? hcut
            have hc : c = ')' := List.mem_singleton.mp hc
            have hr := append_of_cut? hcut
            cases h
            refine ⟨word ++ '(' :: argument ++ [')'], ?_, Outline.spelled_call ?_ ?_⟩
            · rw [ht, ← hr, e, hc]
              simp
            · simp [Outline.callText]
            · have hm : argument.foldl Mark.next .outside = .outside :=
                (Scan.mark_of_run? (run?_of_cut? hcut)).symm
              have ha : Closes ('(' :: argument ++ [')']) :=
                (Closes.append (a := ['(']) rfl hm).append (b := [')']) rfl
              simpa using (neutral_word hwc).closes.append ha
          case _ => cases h
        case _ =>
          cases h
          refine ⟨word, ht, Outline.spelled_call (by simp [Outline.callText]) ?_⟩
          exact (neutral_word hwc).closes
      case isFalse =>
        cases h
        obtain ⟨mark, hr, hm⟩ := passes_question r
        have hr' : word ++ r = (word ++ mark) ++ (question r).2 := by
          rw [List.append_assoc, ← hr]
        refine ⟨word ++ mark, ht.trans hr', Outline.spelled_ready ?_⟩
        have hn := (neutral_word hwc).append hm
        unfold Segment.ofWord
        split
        case _ i hi =>
          exact Segment.spelled_of_neutral hn rfl rfl (Slice.isWord_iff.mpr (signed64?_bounds hi))
        case _ => exact Segment.spelled_of_neutral hn rfl rfl trivial

theorem Tells.split {found others : List Outline} {p : Path} (h : Tells (found ++ others) p) :
    ∃ q q', p = q ++ q' ∧ Tells found q ∧ Tells others q' := by
  rw [Tells, List.mapM_append] at h
  obtain ⟨q, hq, h⟩ := bind_eq_ok_iff.mp h
  obtain ⟨q', hq', e⟩ := bind_eq_ok_iff.mp h
  cases e
  exact ⟨q, q', rfl, hq, hq'⟩

-- Whether a text is one way to write several outlines, with or without dots between them.
structure Spelled (found : List Outline) (taken : List Char) : Prop where
  covers : ∀ p, Tells found p → (∀ o ∈ found, o.Tidy) → Covers taken (Path.renderRest p).toList
  lawful : ∀ o ∈ found, o.Lawful

variable {found others : List Outline} {taken taken' : List Char}

theorem neutral_dot : Neutral ['.'] := neutral_of_isPlain (by decide)

theorem spelled_nil : Spelled [] [] where
  covers p hp _ := by
    cases hp
    exact neutral_nil.covers neutral_nil
  lawful := nofun

theorem spelled_singleton (h : o.Spelled taken) : Spelled [o] taken where
  covers p hp ht := by
    obtain ⟨s, hs, hp⟩ := bind_eq_ok_iff.mp (List.mapM_cons.symm.trans hp)
    cases hp
    have hc := h.covers s hs (ht o List.mem_cons_self)
    cases hb : s.isBracketed with
    | true => simpa [Path.renderRest, hb] using hc
    | false => simpa [Path.renderRest, hb] using (neutral_nil.covers neutral_dot).append hc
  lawful := List.forall_mem_singleton.mpr h.lawful

theorem Spelled.append (h : Spelled found taken) (h' : Spelled others taken') :
    Spelled (found ++ others) (taken ++ taken') where
  covers p hp ht := by
    obtain ⟨q, q', rfl, hq, hq'⟩ := Tells.split hp
    obtain ⟨ht, ht'⟩ := List.forall_mem_append.mp ht
    rw [toList_renderRest_append]
    exact (h.covers q hq ht).append (h'.covers q' hq' ht')
  lawful := List.forall_mem_append.mpr ⟨h.lawful, h'.lawful⟩

theorem Spelled.dot (h : Spelled found taken) : Spelled found ('.' :: taken) where
  covers p hp ht := (neutral_dot.covers neutral_nil).append (h.covers p hp ht)
  lawful := h.lawful

theorem spelled_brackets {found : List Segment} (h : brackets text = .ok (found, rest)) :
    ∃ taken, text = taken ++ rest ∧ Spelled (found.map .ready) taken := by
  fun_induction brackets text generalizing found rest with
  | case1 => cases h
  | case2 =>
    cases h
    exact ⟨[], rfl, spelled_nil⟩
  | case3 text s r hb _ ih =>
    obtain ⟨⟨others, _⟩, hr, e⟩ := map_eq_ok_iff.mp h
    cases e
    obtain ⟨first, ht, hf⟩ := spelled_bracket hb
    obtain ⟨second, hr, hs⟩ := ih hr
    refine ⟨first ++ second, by rw [ht, hr, List.append_assoc], ?_⟩
    exact (spelled_singleton (Outline.spelled_ready hf)).append hs

theorem spelled_keyed (h : keyed text = .ok (some (found, rest))) :
    ∃ taken, text = taken ++ rest ∧ Spelled found taken := by
  obtain ⟨first, hf, h⟩ := bind_eq_ok_iff.mp h
  cases first with
  | none =>
    obtain ⟨⟨more, after⟩, hb, h⟩ := bind_eq_ok_iff.mp h
    dsimp only at h
    split at h <;> cases h
    exact spelled_brackets hb
  | some first =>
    obtain ⟨⟨more, after⟩, hb, h⟩ := bind_eq_ok_iff.mp h
    dsimp only at h
    split at h <;> cases h
    obtain ⟨taken, ht, hs⟩ := spelled_head hf
    obtain ⟨taken', ht', hs'⟩ := spelled_brackets hb
    exact ⟨taken ++ taken', by rw [ht, ht', List.append_assoc], (spelled_singleton hs).append hs'⟩

theorem covers_trimEnd {b : List Char} (h : Covers (Text.trimEnd text) b) : Covers text b := by
  obtain ⟨blanks, ht, hb⟩ := Text.trimEnd_append text
  have hn : Neutral blanks := neutral_of_isPlain (List.all_eq_true.mpr fun c hc =>
    isPlain_of (p := Text.isBlank) (by decide) (List.all_eq_true.mp hb c hc))
  rw [ht, ← List.append_nil b]
  exact h.append (hn.covers neutral_nil)

theorem covers_trim {b : List Char} (h : Covers (Text.trim text) b) : Covers text b := by
  obtain ⟨blanks, ht, hn⟩ : Passes text (Text.trimStart text) := passes_dropWhile (by decide) text
  rw [ht]
  exact (hn.covers neutral_nil).append (covers_trimEnd h)

-- What is written for a field of a construct.
def fieldText (f : String × Path) : List Char :=
  (Json.quoted f.1).toList ++ ':' :: ' ' :: (Path.render f.2).toList

theorem fieldText_eq (name : String) (q : Path) : fieldText (name, q) =
    (Json.quoted name).toList ++ [':', ' '] ++ (Path.render q).toList := by
  simp [fieldText]

theorem neutral_space : Neutral [' '] := neutral_of_isPlain (by decide)

theorem neutral_colon : Neutral [':'] := neutral_of_isPlain (by decide)

theorem neutral_fieldName (name : String) : Neutral ((Json.quoted name).toList ++ [':', ' ']) :=
  (neutral_quoted name).append (neutral_of_isPlain (by decide))

theorem neutral_render_key (name : String) : Neutral (Path.render [.key name false]).toList := by
  have hk : Neutral (Segment.key name false).render.toList := Segment.neutral_render rfl rfl
  simpa [Path.render, Path.renderRest] using hk

theorem neutral_shorthand (name : String) : Neutral (fieldText (name, [.key name false])) := by
  rw [fieldText_eq]
  exact (neutral_fieldName name).append (neutral_render_key name)

-- The text of a field that something follows ends where a cut does.
theorem cut?_of_fieldValue? {value : List Char} (h : fieldValue? text = some (value, rest))
    (hr : rest ≠ []) :
    ∃ inner, cut? fieldStops 0 none text = some (inner, rest) ∧ value = Text.trimEnd inner := by
  simp only [fieldValue?] at h
  split at h
  case isTrue => cases h
  case isFalse =>
    cases hcut : cut? [',', '}'] 0 none text with
    | none =>
      rw [hcut] at h
      cases h
      exact absurd rfl hr
    | some found =>
      rw [hcut] at h
      cases h
      exact ⟨found.1, hcut, rfl⟩

theorem wholeField_of_fieldValue? {name : String} {value : List Char}
    (h : fieldValue? text = some (value, rest)) (hr : rest ≠ []) :
    Outline.WholeField (name, some value) := by
  intro text ht
  cases ht
  obtain ⟨inner, hcut, e⟩ := cut?_of_fieldValue? h hr
  exact ⟨inner, e, run?_of_cut? hcut⟩

theorem spelled_field {f : String × Option (List Char)} (h : field? text = some (f, rest))
    (hr : rest ≠ []) : Outline.WholeField f ∧ ∃ taken, text = taken ++ rest ∧
      ∀ g, Outline.readField f = .ok g → Outline.TidyField f → Covers taken (fieldText g) := by
  obtain ⟨⟨name, after⟩, hn, h⟩ := Option.map_eq_some_iff.mp h
  dsimp only at h
  obtain ⟨before, ht, hb⟩ := (passes_of_name? hn).trans (passes_skipSpace after)
  have hshort : Outline.WholeField (name, none) ∧ ∃ taken, text = taken ++ skipSpace after ∧
      ∀ g, Outline.readField (name, none) = .ok g → Outline.TidyField (name, none) →
        Covers taken (fieldText g) := by
    refine ⟨nofun, before, ht, fun g hg _ => ?_⟩
    cases hg
    exact hb.covers (neutral_shorthand name)
  split at h
  case _ after ha =>
    split at h
    case _ value after' hv =>
      cases h
      obtain ⟨inner, hcut, e⟩ := cut?_of_fieldValue? hv hr
      obtain ⟨spaces, hs, hn⟩ := passes_skipSpace after
      have hpre : Neutral (before ++ ':' :: spaces) := hb.append (neutral_colon.append hn)
      refine ⟨wholeField_of_fieldValue? hv hr, before ++ ':' :: spaces ++ inner, ?_, ?_⟩
      · rw [ht, ha, hs, ← append_of_cut? hcut]
        simp
      · intro g hg hf
        obtain ⟨q, hq, e'⟩ := map_eq_ok_iff.mp hg
        cases e'
        have hc : Covers inner (Path.render q).toList :=
          covers_trimEnd (covers_trim (e ▸ hf _ q rfl hg))
        have hw := (hpre.covers (neutral_fieldName name)).append hc
        rwa [← fieldText_eq] at hw
    case _ =>
      cases h
      exact hshort
  case _ =>
    cases h
    exact hshort

theorem toList_renderFields (g : String × Path) (gs : List (String × Path)) :
    (Path.renderFields (g :: gs)).toList = fieldText g ++
      ((if gs.isEmpty then "" else ", ").toList ++ (Path.renderFields gs).toList) := by
  simp [Path.renderFields, fieldText]

-- Whether a text is one way to write the fields of a construct, `sep` being what stands in front of
-- them if there are any.
structure SpelledFields (sep : String) (fs : List (String × Option (List Char)))
    (taken : List Char) : Prop where
  covers : ∀ gs, fs.mapM Outline.readField = .ok gs → (∀ f ∈ fs, Outline.TidyField f) →
    Covers taken ((if gs.isEmpty then "" else sep).toList ++ (Path.renderFields gs).toList)
  whole  : ∀ f ∈ fs, Outline.WholeField f

theorem spelledFields_nil (sep : String) : SpelledFields sep [] [] where
  covers gs hg _ := by
    cases hg
    exact neutral_nil.covers neutral_nil
  whole := nofun

theorem SpelledFields.cons {sep : String} {f : String × Option (List Char)}
    {fs : List (String × Option (List Char))} {before first second : List Char}
    (hb : Covers before sep.toList) (hw : Outline.WholeField f)
    (hf : ∀ g, Outline.readField f = .ok g → Outline.TidyField f → Covers first (fieldText g))
    (h : SpelledFields ", " fs second) :
    SpelledFields sep (f :: fs) (before ++ (first ++ second)) where
  covers gs hg ht := by
    obtain ⟨g, hgf, hg⟩ := bind_eq_ok_iff.mp (List.mapM_cons.symm.trans hg)
    obtain ⟨gs', hgs, e⟩ := bind_eq_ok_iff.mp hg
    cases e
    obtain ⟨htf, hts⟩ := List.forall_mem_cons.mp ht
    rw [toList_renderFields]
    exact hb.append ((hf g hgf htf).append (h.covers gs' hgs hts))
  whole := List.forall_mem_cons.mpr ⟨hw, h.whole⟩

theorem ne_nil_of_moreFields {r : List Char} (h : skipSpace (moreFields text).2 = '}' :: r) :
    text ≠ [] := by
  obtain ⟨_, _, hs, _⟩ := skipSpace_moreFields h
  exact skipSpace_ne_nil (by simp [hs])

-- The fields behind the first one are written behind a comma.
theorem spelled_moreFields {r : List Char} (h : skipSpace (moreFields text).2 = '}' :: r) :
    ∃ taken, text = taken ++ (moreFields text).2 ∧
      SpelledFields ", " (moreFields text).1 taken := by
  fun_induction moreFields text with
  | case1 | case2 => exact ⟨[], rfl, spelledFields_nil _⟩
  | case3 text rest hc f after hf _ more after' he ih =>
    have hn : after ≠ [] := ne_nil_of_moreFields (by rw [he]; exact h)
    rw [he] at ih
    obtain ⟨r', hr, rfl⟩ := skipSpace_of_comma? hc
    obtain ⟨spaces, hs, hsn⟩ := passes_skipSpace text
    obtain ⟨spaces', hs', hsn'⟩ := passes_skipSpace r'
    obtain ⟨hw, first, hfirst, hcf⟩ := spelled_field hf hn
    obtain ⟨second, hsecond, hcs⟩ := ih h
    have hcomma : Covers (spaces ++ ([','] ++ spaces')) (", " : String).toList :=
      (hsn.covers neutral_nil).append ((covers_char rfl).append (hsn'.covers neutral_space))
    refine ⟨_, ?_, hcs.cons hcomma hw hcf⟩
    rw [hs, hr, hs', hfirst, hsecond]
    simp

theorem spelled_fields {r : List Char} (h : skipSpace (fields text).2 = '}' :: r) :
    ∃ taken, text = taken ++ (fields text).2 ∧ SpelledFields "" (fields text).1 taken := by
  unfold fields at h ⊢
  split at h
  case _ => exact ⟨[], rfl, spelledFields_nil _⟩
  case _ f after hf =>
    obtain ⟨hw, first, hfirst, hcf⟩ := spelled_field hf (ne_nil_of_moreFields h)
    obtain ⟨second, hsecond, hcs⟩ := spelled_moreFields h
    refine ⟨[] ++ (first ++ second), ?_, hcs.cons (neutral_nil.covers neutral_nil) hw hcf⟩
    rw [hfirst, List.nil_append, List.append_assoc, ← hsecond]

theorem spelled_construct (h : construct text = .ok (o, rest)) :
    ∃ taken, text = taken ++ rest ∧ o.Spelled ('{' :: taken) := by
  simp only [construct] at h
  split at h
  case _ r hr =>
    cases h
    obtain ⟨spaces, hs, hn⟩ := passes_skipSpace text
    obtain ⟨taken, ht, hc⟩ := spelled_fields hr
    obtain ⟨spaces', hs', hn'⟩ := passes_skipSpace (fields (skipSpace text)).2
    refine ⟨spaces ++ taken ++ spaces' ++ ['}'], ?_, ?_, hc.whole⟩
    · rw [hs, ht, hs', hr]
      simp
    · intro s hs ht
      rw [Outline.read_construct] at hs
      obtain ⟨gs, hg, e⟩ := map_eq_ok_iff.mp hs
      cases e
      have hi : Covers (spaces ++ taken ++ spaces') (Path.renderFields gs).toList := by
        have hp := (hn.covers neutral_nil).append (hc.covers gs hg ht)
        simpa using hp.append (hn'.covers neutral_nil)
      simpa [Segment.render] using covers_enclosed (c := '{') (d := '}') hi rfl rfl
  case _ => cases h

theorem spelled_segment (h : segment text = .ok (some (found, rest))) :
    ∃ taken, text = taken ++ rest ∧ Spelled found taken := by
  unfold segment at h
  split at h
  case _ r =>
    obtain ⟨⟨o, _⟩, hc, e⟩ := map_eq_ok_iff.mp h
    cases e
    obtain ⟨taken, ht, hs⟩ := spelled_construct hc
    exact ⟨'{' :: taken, by rw [ht]; rfl, spelled_singleton hs⟩
  case _ r =>
    have hp := (passes_char (c := '*') (by decide) r).trans (passes_withMark (.children false) r)
    obtain ⟨taken, ht, hn⟩ := hp
    have hs : (withMark (.children false) r).1.Spelled taken := by
      rcases withMark_eq (.children false) r with e | e
      all_goals
        rw [e]
        exact Segment.spelled_of_neutral hn rfl rfl trivial
    cases h
    exact ⟨taken, ht, spelled_singleton (Outline.spelled_ready hs)⟩
  case _ => exact spelled_keyed h

theorem spelled_dropDot (h : ∃ taken, dropDot text = taken ++ rest ∧ Spelled found taken) :
    ∃ taken, text = taken ++ rest ∧ Spelled found taken := by
  obtain ⟨taken, ht, hs⟩ := h
  unfold dropDot at ht
  split at ht
  case _ => exact ⟨'.' :: taken, by rw [ht]; rfl, hs.dot⟩
  case _ => exact ⟨taken, ht, hs⟩

theorem spelled_more (h : more text = .ok (found, rest)) :
    ∃ taken, text = taken ++ rest ∧ Spelled found taken := by
  fun_induction more text generalizing found rest with
  | case1 => cases h
  | case2 =>
    cases h
    exact ⟨[], rfl, spelled_nil⟩
  | case3 text first r hs _ ih =>
    obtain ⟨⟨others, _⟩, hr, e⟩ := map_eq_ok_iff.mp h
    cases e
    obtain ⟨taken, ht, hf⟩ := spelled_dropDot (spelled_segment hs)
    obtain ⟨taken', hr, hs⟩ := ih hr
    exact ⟨taken ++ taken', by rw [ht, hr, List.append_assoc], hf.append hs⟩

theorem spelled_outline (h : outline text = .ok found) : Spelled found text := by
  obtain ⟨first, r, others, hs, hr, e⟩ := outline_eq_ok h
  subst e
  obtain ⟨taken, ht, hf⟩ := spelled_dropDot (spelled_segment hs)
  obtain ⟨taken', hr, hs⟩ := spelled_more hr
  rw [ht, hr, List.append_nil]
  exact hf.append hs

end Grammar

end JsonQuery
