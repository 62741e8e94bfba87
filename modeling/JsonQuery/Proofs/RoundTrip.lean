import JsonQuery.Proofs.Brackets
import JsonQuery.Proofs.Parsed

namespace JsonQuery

-- Whether a segment is read from its text again. What is written in a richer notation has to come
-- from an expression itself.
def Segment.Readable : Segment → Prop
  | .key name _ => ∀ c ∈ name.toList, Quoted.isLegible c = true
  | .index i _ => isWord i = true
  | .children _ | .elements _ => True
  | .slice s => s.step = none ∧ s.fits = true
  | .selector p text => Parsed (.selector p text) ∧ Grammar.Closed (text.toList.drop 1)
  | .call f text => Parsed (.call f text)
  | .literal _ | .construct _ => False

namespace Grammar

variable {s : Segment} {p : Path} {text rest name : List Char} {argument : Option (List Char)}
  {o : Outline}

theorem isBlank_eq_false_of {p : Char → Bool} {c : Char}
    (hp : ∀ r ∈ Text.blankRanges, ∀ n ∈ List.range' r.1 (r.2 + 1 - r.1), p (Char.ofNat n) = false)
    (h : p c = true) : Text.isBlank c = false := by
  cases hb : Text.isBlank c with
  | false => rfl
  | true =>
    have ⟨r, hr, hl, hu⟩ := Text.exists_of_covers hb
    have hc := hp r hr c.toNat (List.mem_range'_1.mpr (by omega))
    rw [Char.ofNat_toNat, h] at hc
    cases hc

theorem isBlank_of_isWordChar {c : Char} (h : isWordChar c = true) : Text.isBlank c = false :=
  isBlank_eq_false_of (p := isWordChar) (by decide +kernel) h

theorem isWordChar_of_follows (hr : Follows rest) : ∀ c ∈ rest.head?, isWordChar c = false := by
  intro c hc
  cases hr c hc <;> subst c <;> rfl

section

variable {word : List Char} {c : Char} {after : List Char}

theorem head_argument (hw : word? text = some (word, '(' :: rest))
    (hn : Builtin.isName (String.ofList word) = true)
    (hc : Balanced.cut? [')'] 0 none rest = some (name, c :: after)) :
    head text = .ok (some (.call word (some name), after)) := by
  simp only [head, read?_of_word? hw, hw, hn, hc, if_true]
  rfl

theorem head_name (hw : word? text = some (word, rest))
    (hn : Builtin.isName (String.ofList word) = true) (hr : Follows rest) :
    head text = .ok (some (.call word none, rest)) := by
  simp only [head, read?_of_word? hw, hw, hn, if_true]
  cases rest with
  | nil => rfl
  | cons c rest => cases hr c rfl <;> subst c <;> rfl

theorem head_key (hw : word? text = some (word, rest))
    (hn : Builtin.isName (String.ofList word) = false) :
    head text = .ok (some (.ready (.ofWord word (question rest).1), (question rest).2)) := by
  simp only [head, read?_of_word? hw, hw, hn, Bool.false_eq_true, if_false]

end

-- A call is a word that names a function, perhaps with a text in parentheses.
theorem head_eq_call {after : List Char} (h : head text = .ok (some (.call name argument, after))) :
    name ≠ [] ∧ (∀ c ∈ name, isWordChar c = true) ∧ Builtin.isName (String.ofList name) = true ∧
      ∀ inner, argument = some inner →
        ∃ text after, Balanced.cut? [')'] 0 none text = some (inner, ')' :: after) := by
  unfold head at h
  split at h
  case _ => cases h
  case _ =>
    split at h
    case _ => cases h
    case _ word r hw =>
      have ⟨ht, hn, hwc, hs⟩ := word?_eq_some_iff.mp hw
      split at h
      case isFalse => cases h
      case isTrue hname =>
        split at h
        case _ r =>
          split at h
          case _ inner after₀ hc =>
            cases h
            have ⟨c, after, e, hmem⟩ := Balanced.head_of_cut? hc
            have hp : c = ')' := List.mem_singleton.mp hmem
            exact ⟨hn, hwc, hname, fun _ hi => ⟨r, after, by rw [hc, e, hp, Option.some.inj hi]⟩⟩
          case _ => cases h
        case _ =>
          cases h
          exact ⟨hn, hwc, hname, fun _ hi => by cases hi⟩

-- It is read again whatever follows it, as long as that is no part of the call.
theorem head_call {after : List Char} (h : head text = .ok (some (.call name argument, after)))
    (hr : Follows rest) :
    head ((Outline.callText name argument).toList ++ rest) =
      .ok (some (.call name argument, rest)) := by
  have ⟨hn, hw, hname, ha⟩ := head_eq_call h
  cases argument with
  | none =>
    have hw' := word?_eq_some_iff.mpr ⟨rfl, hn, hw, isWordChar_of_follows hr⟩
    simpa [Outline.callText] using head_name hw' hname hr
  | some inner =>
    have ⟨_, _, hc⟩ := ha inner rfl
    have hp : ∀ c ∈ ('(' :: (inner ++ ')' :: rest)).head?, isWordChar c = false := by simp; decide
    have hw' := word?_eq_some_iff.mpr ⟨rfl, hn, hw, hp⟩
    have hh := head_argument hw' hname (Balanced.cut?_append hc rest)
    simpa [Outline.callText] using hh

theorem isPlainKey_eq_true {key : String} (h : isPlainKey key = true) : key.toList ≠ [] ∧
    (∀ c ∈ key.toList, isWordChar c = true) ∧ Builtin.isName key = false := by
  have ⟨⟨⟨hn, hw⟩, _⟩, hname⟩ : ((key ≠ "" ∧ ∀ c ∈ key.toList, isWordChar c = true) ∧
      signed64? key.toList = none) ∧ Builtin.isName key = false := by
    simpa [isPlainKey] using h
  exact ⟨by simpa using hn, hw, hname⟩

theorem head_plain {key : String} (h : isPlainKey key = true) (optional : Bool)
    (hr : Follows rest) :
    head (key.toList ++ ((Segment.mark optional).toList ++ rest)) =
      .ok (some (.ready (.key key optional), rest)) := by
  have ho : Segment.ofWord key.toList optional = .key key optional := ofWord_of_isPlainKey h
  have ⟨hn, hw, hname⟩ := isPlainKey_eq_true h
  have hm : ∀ c ∈ ((Segment.mark optional).toList ++ rest).head?, isWordChar c = false := by
    cases optional with
    | true  => simp [Segment.mark]; decide
    | false => simpa [Segment.mark] using isWordChar_of_follows hr
  have hw' := word?_eq_some_iff.mpr ⟨rfl, hn, hw, hm⟩
  rw [head_key hw' (by simpa using hname), question_mark hr, ho]

-- What stands between brackets with a mark behind them.
theorem bracket_marked {body : List Char} {optional : Bool} (hr : Follows rest)
    (hs : ∀ after, skipSpace (body ++ ']' :: after) = body ++ ']' :: after)
    (hb : ∀ after, bracketBody (body ++ ']' :: after) = .ok (some (s, ']' :: after))) :
    bracket ('[' :: (body ++ ']' :: ((Segment.mark optional).toList ++ rest))) =
      .ok (some (if optional then s.makeOptional else s, rest)) := by
  rw [bracket_of_body (hs _) (hb _), withMark_mark hr]

theorem bracket_elements (hr : Follows rest) (optional : Bool) :
    bracket ('[' :: ']' :: ((Segment.mark optional).toList ++ rest)) =
      .ok (some (.elements optional, rest)) := by
  simp only [bracket, skipSpace_cons (c := ']') rfl, bracketBody_nil, bind, Except.bind,
    closeBracket, withMark_mark hr]
  cases optional <;> rfl

theorem bracket_render (h : s.Readable) (hb : s.isBracketed = true) (hr : Follows rest) :
    bracket (s.render.toList ++ rest) = .ok (some (s, rest)) := by
  cases s with
  | key name optional =>
    have hp : isPlainKey name = false := by simpa [Segment.isBracketed] using hb
    have ht : (Segment.key name optional).render.toList ++ rest =
        '[' :: ((Json.quoted name).toList ++ ']' :: ((Segment.mark optional).toList ++ rest)) := by
      simp [Segment.render, hp]
    have hs (after) : skipSpace ((Json.quoted name).toList ++ ']' :: after) =
        (Json.quoted name).toList ++ ']' :: after := by
      rw [Json.toList_quoted]
      exact skipSpace_cons rfl _
    rw [ht, bracket_marked hr hs fun after => bracketBody_quoted h (']' :: after)]
    cases optional <;> rfl
  | index i optional =>
    have ht : (Segment.index i optional).render.toList ++ rest =
        '[' :: (integerText i ++ ']' :: ((Segment.mark optional).toList ++ rest)) := by
      simp [Segment.render]
    rw [ht, bracket_marked hr (fun _ => skipSpace_integerText i _) (bracketBody_integerText h)]
    cases optional <;> rfl
  | children optional =>
    have ho : optional = true := hb
    subst ho
    have ht : (Segment.children true).render.toList ++ rest =
        '[' :: (['*'] ++ ']' :: ((Segment.mark true).toList ++ rest)) := rfl
    have hb (after) : bracketBody (['*'] ++ ']' :: after) =
        .ok (some (.children false, ']' :: after)) := rfl
    rw [ht, bracket_marked hr (fun _ => rfl) hb]
    rfl
  | elements optional =>
    have ht : (Segment.elements optional).render.toList ++ rest =
        '[' :: ']' :: ((Segment.mark optional).toList ++ rest) := by
      simp [Segment.render]
    rw [ht, bracket_elements hr]
  | slice sl =>
    have ht : (Segment.slice sl).render.toList ++ rest =
        '[' :: (sl.text ++ ']' :: ((Segment.mark false).toList ++ rest)) := by
      simp [Segment.render, Segment.mark]
    rw [ht, bracket_marked hr (fun _ => skipSpace_slice_text sl _) (bracketBody_slice h.1 h.2)]
    rfl
  | selector p raw =>
    have ⟨text, after, hp⟩ := h.1.selector
    have ⟨taken, hraw, hs⟩ := bracketBody_selector hp
    have ht : (Segment.selector p raw).render.toList ++ rest =
        '[' :: (raw.toList ++ ']' :: ((Segment.mark false).toList ++ rest)) := by
      simp [Segment.render, Segment.mark]
    have hc : Closed taken := by simpa [hraw] using h.2
    have hsp (after) : skipSpace (raw.toList ++ ']' :: after) = raw.toList ++ ']' :: after := by
      rw [hraw]
      exact skipSpace_cons rfl _
    rw [ht, bracket_marked hr hsp fun after => hs hc (']' :: after)]
    rfl
  | call f raw => cases hb
  | literal v => cases hb
  | construct fields => cases hb

theorem head_render (h : s.Readable) (hb : s.isBracketed = false) (hn : s ≠ .children false)
    (hr : Follows rest) :
    ∃ o, head (s.render.toList ++ rest) = .ok (some (o, rest)) ∧ o.read = .ok s := by
  cases s with
  | key name optional =>
    have hp : isPlainKey name = true := by simpa [Segment.isBracketed] using hb
    have ht : (Segment.key name optional).render.toList ++ rest =
        name.toList ++ ((Segment.mark optional).toList ++ rest) := by
      simp [Segment.render, hp]
    exact ⟨_, ht ▸ head_plain hp optional hr, rfl⟩
  | call f raw =>
    have ⟨text, name, argument, after, hh, ho⟩ := Segment.Parsed.call h
    have ⟨_, _, e⟩ := map_eq_ok_iff.mp ho
    have ht : (Segment.call f raw).render = Outline.callText name argument := by
      cases e
      simp only [Segment.render]
    exact ⟨_, ht ▸ head_call hh hr, ho⟩
  | children optional =>
    cases optional with
    | true  => cases hb
    | false => exact absurd rfl hn
  | literal v => cases h
  | construct fields => cases h
  | index | elements | slice | selector => cases hb

-- A segment in brackets starts with one, and any other one but the star with a character of a word.
theorem start_render (h : s.Readable) : ∃ c cs, s.render.toList = c :: cs ∧
    (s.isBracketed = true ∧ c = '[' ∨
      s.isBracketed = false ∧ (isWordChar c = true ∨ s = .children false ∧ c = '*')) := by
  cases s with
  | key name optional =>
    cases hp : isPlainKey name with
    | false => simp [Segment.render, Segment.isBracketed, hp]
    | true =>
      have ⟨hn, hw, _⟩ := isPlainKey_eq_true hp
      have ⟨c, cs, hc⟩ := List.exists_cons_of_ne_nil hn
      have hwc := hw c (hc ▸ List.mem_cons_self)
      simp [Segment.render, Segment.isBracketed, hp, hc, hwc]
  | children optional =>
    cases optional with
    | true  => exact ⟨'[', _, rfl, .inl ⟨rfl, rfl⟩⟩
    | false => exact ⟨'*', _, rfl, .inr ⟨rfl, .inr ⟨rfl, rfl⟩⟩⟩
  | call f raw =>
    have ⟨text, name, argument, after, hh, ho⟩ := Segment.Parsed.call h
    have ⟨_, _, e⟩ := map_eq_ok_iff.mp ho
    have ⟨hn, hw, _⟩ := head_eq_call hh
    have ⟨c, cs, hc⟩ := List.exists_cons_of_ne_nil hn
    have hwc := hw c (hc ▸ List.mem_cons_self)
    cases e
    simp [Segment.render, Segment.isBracketed, Outline.callText, hc, hwc]
  | literal v => cases h
  | construct fields => cases h
  | index | elements | slice | selector => simp [Segment.render, Segment.isBracketed]

theorem start_visible (h : s.Readable) :
    ∃ c cs, s.render.toList = c :: cs ∧ c ≠ '.' ∧ Text.isBlank c = false := by
  have ⟨c, cs, hc, hs⟩ := start_render h
  refine ⟨c, cs, hc, ?_⟩
  rcases hs with ⟨_, rfl⟩ | ⟨_, hw | ⟨_, rfl⟩⟩
  · exact ⟨by decide, by decide⟩
  · exact ⟨fun e => absurd (e ▸ hw) (by decide), isBlank_of_isWordChar hw⟩
  · exact ⟨by decide, by decide⟩

theorem follows_renderRest (h : ∀ s ∈ p, s.Readable) : Follows (Path.renderRest p).toList := by
  cases p with
  | nil => simp [Path.renderRest, Follows]
  | cons s rest =>
    have ⟨c, cs, hc, hs⟩ := start_render (h s List.mem_cons_self)
    cases hs with
    | inl hs => simp [Path.renderRest, Follows, hs.1, hc, hs.2]
    | inr hs => simp [Path.renderRest, Follows, hs.1]

theorem brackets_of_bracket (h : bracket text = .ok (some (s, rest))) :
    brackets text = (brackets rest).map fun (found, rest) => (s :: found, rest) := by
  rw [brackets]
  split
  case _ he => cases h.symm.trans he
  case _ he => cases h.symm.trans he
  case _ he =>
    cases h.symm.trans he
    rfl

theorem brackets_of_none (h : bracket text = .ok none) : brackets text = .ok ([], text) := by
  rw [brackets]
  split
  case _ he => cases h.symm.trans he
  case _ he => rfl
  case _ he => cases h.symm.trans he

theorem brackets_nil : brackets [] = .ok ([], []) := brackets_of_none rfl

-- The brackets that a path starts with are read one after another.
theorem brackets_renderRest (h : ∀ s ∈ p, s.Readable) : brackets (Path.renderRest p).toList =
    .ok (p.takeWhile Segment.isBracketed,
      (Path.renderRest (p.dropWhile Segment.isBracketed)).toList) := by
  induction p with
  | nil => exact brackets_nil
  | cons s rest ih =>
    have ⟨hs, hrest⟩ := List.forall_mem_cons.mp h
    cases hb : s.isBracketed with
    | true =>
      have ht : (Path.renderRest (s :: rest)).toList =
          s.render.toList ++ (Path.renderRest rest).toList := by
        simp [Path.renderRest, hb]
      rw [ht, brackets_of_bracket (bracket_render hs hb (follows_renderRest hrest)), ih hrest]
      simp [Except.map, hb]
    | false =>
      have ht : (Path.renderRest (s :: rest)).toList =
          '.' :: (s.render.toList ++ (Path.renderRest rest).toList) := by
        simp [Path.renderRest, hb]
      rw [List.takeWhile_cons_of_neg (by simp [hb]), List.dropWhile_cons_of_neg (by simp [hb]), ht]
      exact brackets_of_none rfl

-- The outlines of a text stand for these segments.
def Tells (outlines : List Outline) (p : Path) : Prop := outlines.mapM Outline.read = .ok p

theorem tells_ready (p : Path) : Tells (p.map .ready) p := by
  have h : p.mapM (fun s => Outline.read (.ready s)) = .ok (p.map id) := mapM_eq_ok fun _ _ => rfl
  rw [List.map_id] at h
  exact List.mapM_map.trans h

theorem Tells.append {os os' : List Outline} {q : Path} (h : Tells os p) (h' : Tells os' q) :
    Tells (os ++ os') (p ++ q) := by
  unfold Tells at h h' ⊢
  rw [List.mapM_append, h, h']
  rfl

theorem Tells.cons {os : List Outline} (h : o.read = .ok s) (h' : Tells os p) :
    Tells (o :: os) (s :: p) := by
  unfold Tells at h' ⊢
  rw [List.mapM_cons, h, h']
  rfl

theorem keyed_of_brackets {found : List Segment} (hh : head text = .ok none)
    (hb : brackets text = .ok (s :: found, rest)) :
    keyed text = .ok (some ((s :: found).map .ready, rest)) := by
  simp [keyed, hh, hb, bind, Except.bind]
  rfl

theorem keyed_of_head {found : List Segment} {after : List Char}
    (hh : head text = .ok (some (o, rest))) (hb : brackets rest = .ok (found, after)) :
    keyed text = .ok (some (o :: found.map .ready, after)) := by
  simp [keyed, hh, hb, bind, Except.bind]
  rfl

theorem segment_eq_keyed {c : Char} (h : c ≠ '{') (h' : c ≠ '*') (rest : List Char) :
    segment (c :: rest) = keyed (c :: rest) := by
  simp [segment, h, h']

-- A text is read up to the next segment that is not in brackets, or up to the one after the star.
theorem segment_render {rest : Path} (h : ∀ t ∈ s :: rest, t.Readable) : ∃ found first q,
    segment (s.render.toList ++ (Path.renderRest rest).toList) =
        .ok (some (found, (Path.renderRest q).toList)) ∧
      Tells found first ∧ first ≠ [] ∧ first ++ q = s :: rest := by
  have ⟨hs, hrest⟩ := List.forall_mem_cons.mp h
  have hf := follows_renderRest hrest
  have hb := brackets_renderRest hrest
  have happ : (s :: rest.takeWhile Segment.isBracketed) ++ rest.dropWhile Segment.isBracketed =
      s :: rest := by
    rw [List.cons_append, List.takeWhile_append_dropWhile]
  have ⟨c, cs, hc, hstart⟩ := start_render hs
  cases hstart with
  | inl hstart =>
    have hbs := brackets_of_bracket (bracket_render hs hstart.1 hf)
    rw [hb] at hbs
    rw [hc, hstart.2, List.cons_append] at hbs ⊢
    rw [segment_eq_keyed (by decide) (by decide), keyed_of_brackets rfl hbs]
    exact ⟨_, _, _, rfl, tells_ready _, List.cons_ne_nil _ _, happ⟩
  | inr hstart =>
    cases hstart.2 with
    | inl hw =>
      have hstar : s ≠ .children false := by
        intro e
        rw [e] at hc
        have hc : c = '*' := (List.cons.inj (hc.symm.trans rfl)).1
        exact absurd (hc ▸ hw) (by decide)
      have ⟨o, ho, hr⟩ := head_render hs hstart.1 hstar hf
      have hn : c ≠ '\x7b' := fun e => absurd (e ▸ hw) (by decide)
      have hn' : c ≠ '*' := fun e => absurd (e ▸ hw) (by decide)
      rw [hc, List.cons_append] at ho ⊢
      rw [segment_eq_keyed hn hn', keyed_of_head ho hb]
      exact ⟨_, _, _, rfl, .cons hr (tells_ready _), List.cons_ne_nil _ _, happ⟩
    | inr hstar =>
      have hm : withMark (.children false) (Path.renderRest rest).toList =
          (.children false, (Path.renderRest rest).toList) := withMark_mark hf _ false
      have ht : segment ('*' :: (Path.renderRest rest).toList) =
          .ok (some ([.ready (.children false)], (Path.renderRest rest).toList)) := by
        simp only [segment, hm]
      rw [hstar.1]
      exact ⟨_, [.children false], rest, ht, rfl, List.cons_ne_nil _ _, rfl⟩

theorem more_of_segment {found : List Outline}
    (h : segment (dropDot text) = .ok (some (found, rest))) :
    more text = (more rest).map fun (others, rest) => (found ++ others, rest) := by
  rw [more]
  split
  case _ he => cases h.symm.trans he
  case _ he => cases h.symm.trans he
  case _ he =>
    cases h.symm.trans he
    rfl

theorem dropDot_renderRest {rest : Path} (h : s.Readable) :
    dropDot (Path.renderRest (s :: rest)).toList =
      s.render.toList ++ (Path.renderRest rest).toList := by
  have ⟨c, cs, hc, hs⟩ := start_render h
  cases hs with
  | inl hs => simp [Path.renderRest, hs.1, hc, hs.2, dropDot]
  | inr hs => simp [Path.renderRest, hs.1, dropDot]

theorem more_nil : more [] = .ok ([], []) := by
  have hs : segment (dropDot []) = .ok none := by
    have hh : head [] = .ok none := rfl
    simp [dropDot, segment, keyed, hh, brackets_nil, bind, Except.bind, pure, Except.pure]
  rw [more]
  split
  case _ he => cases hs.symm.trans he
  case _ => rfl
  case _ he => cases hs.symm.trans he

-- What follows the first segments is read until nothing is left.
theorem more_renderRest (p : Path) (h : ∀ s ∈ p, s.Readable) :
    ∃ found, more (Path.renderRest p).toList = .ok (found, []) ∧ Tells found p := by
  match p with
  | [] => exact ⟨[], more_nil, rfl⟩
  | s :: rest =>
    have ⟨found, first, q, hseg, ht, hn, hq⟩ := segment_render h
    have hlt : q.length < (s :: rest).length := by
      rw [← hq, List.length_append]
      have := List.length_pos_iff.mpr hn
      omega
    have ⟨others, hm, ht'⟩ := more_renderRest q fun t hq' => h t (hq ▸ List.mem_append_right _ hq')
    rw [← dropDot_renderRest (h s List.mem_cons_self)] at hseg
    rw [more_of_segment hseg, hm]
    exact ⟨found ++ others, rfl, hq ▸ ht.append ht'⟩
termination_by p.length
decreasing_by exact hlt

theorem outline_render {rest : Path} (h : ∀ t ∈ s :: rest, t.Readable) :
    ∃ found, outline (Path.render (s :: rest)).toList = .ok found ∧ Tells found (s :: rest) := by
  have ⟨found, first, q, hseg, ht, _, hq⟩ := segment_render h
  have ⟨others, hm, ht'⟩ := more_renderRest q fun t hq' => h t (hq ▸ List.mem_append_right _ hq')
  have hd : dropDot (Path.render (s :: rest)).toList =
      s.render.toList ++ (Path.renderRest rest).toList := by
    have ⟨c, cs, hc, hdot, _⟩ := start_visible (h s List.mem_cons_self)
    simp [Path.render, hc, dropDot, hdot]
  refine ⟨found ++ others, ?_, hq ▸ ht.append ht'⟩
  simp only [outline, hd, hseg, hm, bind, Except.bind]
  rfl

theorem outline_of_segment {found : List Outline}
    (h : segment (dropDot text) = .ok (some (found, []))) : outline text = .ok found := by
  simp [outline, h, more_nil, bind, Except.bind, pure, Except.pure]

-- Whether a text ends with a character that is no white space.
def EndsVisibly (text : List Char) : Prop := ∃ cs c, text = cs ++ [c] ∧ Text.isBlank c = false

theorem endsVisibly_word (hn : text ≠ []) (hw : ∀ c ∈ text, isWordChar c = true) :
    EndsVisibly text := by
  cases List.eq_nil_or_concat text with
  | inl h => exact absurd h hn
  | inr h =>
    have ⟨cs, c, e⟩ := h
    rw [List.concat_eq_append] at e
    exact ⟨cs, c, e, isBlank_of_isWordChar (hw c (by simp [e]))⟩

theorem endsVisibly_append (h : EndsVisibly text) (before : List Char) :
    EndsVisibly (before ++ text) :=
  have ⟨cs, c, e, hc⟩ := h
  ⟨before ++ cs, c, by rw [e, List.append_assoc], hc⟩

theorem endsVisibly_mark {c : Char} (hc : Text.isBlank c = false) (before : List Char)
    (optional : Bool) :
    EndsVisibly (before ++ c :: (Segment.mark optional).toList) := by
  cases optional with
  | true  => exact ⟨before ++ [c], '?', by simp [Segment.mark], by decide⟩
  | false => exact ⟨before, c, by simp [Segment.mark], hc⟩

theorem endsVisibly_concrete (h : s.isConcrete = true) : EndsVisibly s.render.toList := by
  cases s <;> simp only [Segment.isConcrete, Bool.false_eq_true] at h
  case key name optional =>
    cases hp : isPlainKey name with
    | false =>
      simpa [Segment.render, hp] using
        endsVisibly_mark (c := ']') (by decide) ('[' :: (Json.quoted name).toList) optional
    | true =>
      cases optional with
      | true => exact ⟨name.toList, '?', by simp [Segment.render, Segment.mark, hp], by decide⟩
      | false =>
        obtain ⟨hn, hw, _⟩ := isPlainKey_eq_true hp
        simpa [Segment.render, Segment.mark, hp] using endsVisibly_word hn hw
  case index i optional =>
    simpa [Segment.render] using
      endsVisibly_mark (c := ']') (by decide) ('[' :: integerText i) optional

theorem endsVisibly_render (h : s.Readable) : EndsVisibly s.render.toList := by
  cases s with
  | key name optional => exact endsVisibly_concrete rfl
  | index i optional => exact endsVisibly_concrete rfl
  | children optional =>
    cases optional with
    | true  => exact ⟨['[', '*', ']'], '?', rfl, by decide⟩
    | false => exact ⟨[], '*', rfl, by decide⟩
  | elements optional =>
    simpa [Segment.render] using endsVisibly_mark (c := ']') (by decide) ['['] optional
  | slice sl => exact ⟨'[' :: sl.text, ']', by simp [Segment.render], by decide⟩
  | selector p raw => exact ⟨'[' :: raw.toList, ']', by simp [Segment.render], by decide⟩
  | call f raw =>
    have ⟨text, name, argument, after, hh, ho⟩ := Segment.Parsed.call h
    have ⟨_, _, e⟩ := map_eq_ok_iff.mp ho
    have ⟨hn, hw, _⟩ := head_eq_call hh
    cases e
    cases argument with
    | none => simpa [Segment.render, Outline.callText] using endsVisibly_word hn hw
    | some inner =>
      exact ⟨name ++ '(' :: inner, ')', by simp [Segment.render, Outline.callText], by decide⟩
  | literal v => cases h
  | construct fields => cases h

theorem endsVisibly_renderRest {rest : Path} (h : ∀ t ∈ s :: rest, EndsVisibly t.render.toList) :
    EndsVisibly (s.render.toList ++ (Path.renderRest rest).toList) := by
  have ⟨hs, hrest⟩ := List.forall_mem_cons.mp h
  induction rest generalizing s with
  | nil => simpa [Path.renderRest] using hs
  | cons t rest ih =>
    have ⟨ht, hrest'⟩ := List.forall_mem_cons.mp hrest
    have he := endsVisibly_append (ih hrest ht hrest')
      (s.render.toList ++ (if t.isBracketed then "" else ".").toList)
    simpa [Path.renderRest] using he

end Grammar

theorem Text.trim_of_visible {text cs : List Char} {c : Char} (e : text = c :: cs)
    (hc : isBlank c = false) (he : Grammar.EndsVisibly text) : trim text = text := by
  have ⟨ds, d, e', hd⟩ := he
  rw [trim, e, trimStart_cons hc, ← e, e', trimEnd_append_singleton hd]

namespace Path

variable {p : Path}

theorem trim_render {s : Segment} {rest : Path} (h : ∀ t ∈ s :: rest, t.Readable) :
    Text.trim (render (s :: rest)).toList = (render (s :: rest)).toList := by
  have ⟨c, cs, hc, _, hb⟩ := Grammar.start_visible (h s List.mem_cons_self)
  have he := Grammar.endsVisibly_renderRest fun t ht => Grammar.endsVisibly_render (h t ht)
  rw [← String.toList_append, ← render] at he
  exact Text.trim_of_visible (by rw [render, String.toList_append, hc]; rfl) hb he

-- Expressions read again what paths are written as.
theorem ofString_render (h : ∀ s ∈ p, s.Readable) : ofString (render p) = .ok p := by
  rw [ofString, parse_eq]
  cases p with
  | nil => rw [if_pos (.inr rfl)]
  | cons s rest =>
    have ⟨found, ho, ht⟩ := Grammar.outline_render h
    have ⟨c, cs, hc, hdot, _⟩ := Grammar.start_visible (h s List.mem_cons_self)
    have hr : (render (s :: rest)).toList = c :: (cs ++ (renderRest rest).toList) := by
      simp [render, hc]
    have hn : ¬ ((render (s :: rest)).toList = [] ∨ (render (s :: rest)).toList = ['.']) := by
      simp [hr, hdot]
    rw [trim_render h, if_neg hn, ho]
    exact ht

theorem parse_of_segment {text : List Char} {found : List Outline} (ht : Text.trim text = text)
    (hn : ¬ (text = [] ∨ text = ['.']))
    (hs : Grammar.segment (Grammar.dropDot text) = .ok (some (found, [])))
    (hf : Grammar.Tells found p) : parse text = .ok p := by
  rw [parse_eq, ht, if_neg hn, Grammar.outline_of_segment hs]
  exact hf

section

open Grammar

theorem ofString_render_mixed :
    let p : Path := [
      .key "length" true, .key "a.b" false, .index (-1) true, .children false,
      .slice ⟨some 1, none, none⟩,
      .selector (.compare "k" .ne (Literal.ofText "\"x)]\"".toList)) "?(@.k != \"x)]\")",
      .call .keys "keys", .key "c" false]
    ofString (render p) = .ok p := by
  intro p
  have hkey (name : String) (q : Bool) (h : name.toList.all Quoted.isLegible = true) :
      (Segment.key name q).Readable := List.all_eq_true.mp h
  have hsel : Segment.Readable
      (.selector (.compare "k" .ne (Literal.ofText "\"x)]\"".toList)) "?(@.k != \"x)]\")") := by
    refine ⟨⟨"[?(@.k != \"x)]\")]", [_], ?_, List.mem_singleton.mpr rfl⟩, ?_⟩
    · have hb : bracket "[?(@.k != \"x)]\")]".toList = .ok (some (.selector
          (.compare "k" .ne (Literal.ofText "\"x)]\"".toList)) "?(@.k != \"x)]\")", [])) := rfl
      have hs := brackets_of_bracket hb
      rw [brackets_nil] at hs
      have hh : head "[?(@.k != \"x)]\")]".toList = .ok none := rfl
      have hk : segment (dropDot "[?(@.k != \"x)]\")]".toList) =
          keyed "[?(@.k != \"x)]\")]".toList := rfl
      have ht : Text.trim "[?(@.k != \"x)]\")]".toList = "[?(@.k != \"x)]\")]".toList := by decide
      exact parse_of_segment ht (by simp) (hk.trans (keyed_of_brackets hh hs)) (tells_ready [_])
    · have hp : compare? ("?(@.k != \"x)]\")".toList.drop 1) =
          some (.compare "k" .ne (Literal.ofText "\"x)]\"".toList), []) := rfl
      have hc : comparing? ("?(@.k != \"x)]\")".toList.drop 1) =
          some (("k", .ne), "\"x)]\")".toList) := rfl
      refine closed_of_compare? hp fun x rest h hn => ?_
      cases h.symm.trans hc
      exact absurd hn (by decide)
  have hcall : Segment.Readable (.call .keys "keys") := by
    refine ⟨"keys", [_], ?_, List.mem_singleton.mpr rfl⟩
    have hh : head "keys".toList = .ok (some (.call "keys".toList none, [])) := rfl
    have hk : segment (dropDot "keys".toList) = keyed "keys".toList := rfl
    have ht : Text.trim "keys".toList = "keys".toList := by decide
    have hr : Outline.read (.call "keys".toList none) = .ok (.call .keys "keys") := rfl
    exact parse_of_segment ht (by simp) (hk.trans (keyed_of_head hh brackets_nil))
      (.cons hr (tells_ready []))
  refine ofString_render ?_
  simp only [p, List.forall_mem_cons]
  exact ⟨hkey _ _ (by decide), hkey _ _ (by decide), (by decide : isWord (-1) = true), trivial,
    ⟨rfl, by decide⟩, hsel, hcall, hkey _ _ (by decide), by simp⟩

end

end Path

end JsonQuery
