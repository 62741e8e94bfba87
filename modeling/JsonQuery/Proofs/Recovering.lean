import JsonQuery.Proofs.Rereading
import JsonQuery.Proofs.Spelling

namespace JsonQuery

open JsonQuery.Balanced

section

variable {α β ε : Type} {f : α → Except ε β} {xs : List α} {ys : List β}

theorem mapM_eq_ok_iff_forall₂ :
    xs.mapM f = .ok ys ↔ List.Forall₂ (fun x y => f x = .ok y) xs ys := by
  induction xs generalizing ys with
  | nil =>
    cases ys with
    | nil    => exact iff_of_true rfl .nil
    | cons _ => exact iff_of_false nofun nofun
  | cons x xs ih =>
    rw [List.mapM_cons]
    constructor
    case mp =>
      intro h
      obtain ⟨y, hy, h⟩ := bind_eq_ok_iff.mp h
      obtain ⟨ys, hys, e⟩ := bind_eq_ok_iff.mp h
      cases e
      exact .cons hy (ih.mp hys)
    case mpr =>
      intro h
      cases h with
      | cons hy hys =>
        rw [hy, ih.mpr hys]
        rfl

theorem exists_of_mapM_eq_ok (h : xs.mapM f = .ok ys) : ∀ x ∈ xs, ∃ y ∈ ys, f x = .ok y := by
  rw [mapM_eq_ok_iff_forall₂] at h
  induction h with
  | nil => simp
  | cons hy _ ih =>
    refine List.forall_mem_cons.mpr ⟨⟨_, List.mem_cons_self, hy⟩, fun x hx => ?_⟩
    obtain ⟨y, hm, hy⟩ := ih x hx
    exact ⟨y, List.mem_cons_of_mem _ hm, hy⟩

end

namespace Grammar

variable {text rest : List Char} {c : Char}

-- A text with no white space around it that is not taken for a string between single quotes.
structure Visible (text : List Char) : Prop where
  starts : ∃ c cs, text = c :: cs ∧ c ≠ '\'' ∧ Text.isBlank c = false
  ends   : EndsVisibly text

theorem Visible.trim (h : Visible text) : Text.trim text = text := by
  obtain ⟨c, cs, e, _, hc⟩ := h.starts
  exact Text.trim_of_visible e hc h.ends

theorem Visible.singleQuoted? (h : Visible text) : Literal.singleQuoted? text = none := by
  obtain ⟨c, cs, rfl, hc, _⟩ := h.starts
  unfold Literal.singleQuoted?
  split
  case _ e =>
    cases e
    exact absurd rfl hc
  case _ => rfl

theorem visible_enclosed {d : Char} (hq : c ≠ '\'') (hc : Text.isBlank c = false)
    (hd : Text.isBlank d = false) (text : List Char) : Visible (c :: (text ++ [d])) where
  starts := ⟨c, _, rfl, hq, hc⟩
  ends   := ⟨c :: text, d, rfl, hd⟩

theorem isSpace_of_not_isBlank (h : Text.isBlank c = false) : Lexeme.isSpace c = false := by
  cases hs : Lexeme.isSpace c with
  | false => rfl
  | true =>
    rcases Lexeme.isSpace_cases hs with rfl | rfl | rfl | rfl <;> cases h

theorem Visible.skipSpace (h : Visible text) (rest : List Char) :
    skipSpace (text ++ rest) = text ++ rest := by
  obtain ⟨c, cs, e, _, hc⟩ := h.starts
  rw [e, List.cons_append]
  exact skipSpace_cons (isSpace_of_not_isBlank hc) _

-- A text that can stand in a construct as the text of a field.
structure Inner (text : List Char) : Prop extends Visible text where
  whole : scan? 0 text = some ⟨0, .outside⟩

theorem trimEnd_of_endsVisibly (h : EndsVisibly text) : Text.trimEnd text = text := by
  obtain ⟨cs, c, e, hc⟩ := h
  rw [e, Text.trimEnd_append_singleton hc]

theorem fieldValue?_inner (h : Inner text) (hc : c ∈ fieldStops) (rest : List Char) :
    fieldValue? (text ++ c :: rest) = some (text, c :: rest) := by
  have hq : isQuote c = false ∧ opens c = false := by
    have hs : c = ',' ∨ c = '}' := by simpa [fieldStops] using hc
    rcases hs with rfl | rfl <;> exact ⟨rfl, rfl⟩
  have hcut : cut? [',', '}'] 0 none (text ++ c :: rest) = some (text, c :: rest) :=
    cut?_of_run? h.whole hc hq.1 hq.2
  have hn : text ≠ [] := by
    obtain ⟨c, cs, e, _⟩ := h.starts
    simp [e]
  have he := trimEnd_of_endsVisibly h.ends
  simp [fieldValue?, hcut, he, hn]

theorem name?_quoted {name : String} (h : ∀ c ∈ name.toList, Quoted.isLegible c = true)
    (rest : List Char) : name? ((Json.quoted name).toList ++ rest) = some (name, rest) := by
  rw [name?, Quoted.read?_quoted h]

-- The field of a construct as it is found in the rendering of the construct.
def fieldOutline (g : String × Path) : String × Option (List Char) :=
  (g.1, some (Path.render g.2).toList)

-- Whether a field is found in its rendering.
structure Findable (g : String × Path) : Prop where
  legible : ∀ c ∈ g.1.toList, Quoted.isLegible c = true
  inner   : Inner (Path.render g.2).toList

variable {g : String × Path} {gs : List (String × Path)}

theorem field?_fieldText (h : Findable g) (hc : c ∈ fieldStops) (rest : List Char) :
    field? (fieldText g ++ c :: rest) = some (fieldOutline g, c :: rest) := by
  have ht : fieldText g ++ c :: rest = (Json.quoted g.1).toList ++
      ':' :: ' ' :: ((Path.render g.2).toList ++ c :: rest) := by
    simp [fieldText]
  have hs : skipSpace (' ' :: ((Path.render g.2).toList ++ c :: rest)) =
      (Path.render g.2).toList ++ c :: rest := by
    rw [skipSpace, List.dropWhile_cons_of_pos (by decide)]
    exact h.inner.skipSpace _
  rw [ht, field?, name?_quoted h.legible, Option.map_some]
  simp only [skipSpace_cons (c := ':') rfl, hs, fieldValue?_inner h.inner hc]
  rfl

theorem skipSpace_fieldText (g : String × Path) (rest : List Char) :
    skipSpace (fieldText g ++ rest) = fieldText g ++ rest := by
  have ht : fieldText g ++ rest = '"' :: (g.1.toList.flatMap Json.escape ++
      '"' :: ':' :: ' ' :: ((Path.render g.2).toList ++ rest)) := by
    simp [fieldText, Json.toList_quoted]
  rw [ht]
  exact skipSpace_cons rfl _

-- What stands behind a field: a comma and the other fields, or the closing brace.
def behind (gs : List (String × Path)) (rest : List Char) : List Char :=
  (if gs.isEmpty then "" else ", ").toList ++ ((Path.renderFields gs).toList ++ '}' :: rest)

theorem head_behind (gs : List (String × Path)) (rest : List Char) :
    ∃ c r, behind gs rest = c :: r ∧ c ∈ fieldStops := by
  cases gs with
  | nil       => exact ⟨'}', rest, by simp [behind, Path.renderFields], by decide⟩
  | cons g gs => exact ⟨',', _, by simp [behind]; rfl, by decide⟩

theorem toList_renderFields_append (g : String × Path) (gs : List (String × Path))
    (rest : List Char) : (Path.renderFields (g :: gs)).toList ++ '}' :: rest =
      fieldText g ++ behind gs rest := by
  simp [toList_renderFields, behind]

theorem field?_behind (h : Findable g) (gs : List (String × Path)) (rest : List Char) :
    field? (fieldText g ++ behind gs rest) = some (fieldOutline g, behind gs rest) := by
  obtain ⟨c, r, e, hc⟩ := head_behind gs rest
  rw [e]
  exact field?_fieldText h hc r

theorem moreFields_behind (h : ∀ g ∈ gs, Findable g) (rest : List Char) :
    moreFields (behind gs rest) = (gs.map fieldOutline, '}' :: rest) := by
  induction gs with
  | nil => exact moreFields_of_none rfl
  | cons g gs ih =>
    obtain ⟨hg, hgs⟩ := List.forall_mem_cons.mp h
    have ht : behind (g :: gs) rest = ',' :: ' ' :: (fieldText g ++ behind gs rest) := by
      rw [← toList_renderFields_append]
      simp [behind]
    have hc : comma? (behind (g :: gs) rest) = some (fieldText g ++ behind gs rest) := by
      rw [ht, comma?, skipSpace_cons (c := ',') rfl, expect?_cons, if_pos rfl, Option.map_some,
        skipSpace, List.dropWhile_cons_of_pos (by decide)]
      exact congrArg some (skipSpace_fieldText g _)
    rw [moreFields_of_field? hc (field?_behind hg gs rest), ih hgs]
    rfl

theorem construct_render (h : ∀ g ∈ gs, Findable g) (rest : List Char) :
    construct ((Path.renderFields gs).toList ++ '}' :: rest) =
      .ok (.construct (gs.map fieldOutline), rest) := by
  have hb : skipSpace ('}' :: rest) = '}' :: rest := skipSpace_cons rfl rest
  cases gs with
  | nil =>
    have ht : (Path.renderFields []).toList ++ '}' :: rest = '}' :: rest := by
      simp [Path.renderFields]
    have hf : fields ('}' :: rest) = ([], '}' :: rest) := by
      simp [fields, field?_eq_none]
    rw [ht]
    simp only [construct, hb, hf]
    rfl
  | cons g gs =>
    obtain ⟨hg, hgs⟩ := List.forall_mem_cons.mp h
    have hf : fields (fieldText g ++ behind gs rest) =
        (fieldOutline g :: gs.map fieldOutline, '}' :: rest) := by
      simp only [fields, field?_behind hg, moreFields_behind hgs]
    rw [toList_renderFields_append]
    simp only [construct, skipSpace_fieldText, hf, hb]
    rfl

end Grammar

mutual

-- The segments of a path and of the paths in its constructs, at any depth.
def Segment.parts : Segment → List Segment
  | .construct fields => .construct fields :: Path.partsOfFields fields
  | s                 => [s]

def Path.parts : List Segment → List Segment
  | []        => []
  | s :: rest => s.parts ++ Path.parts rest

def Path.partsOfFields : List (String × List Segment) → List Segment
  | []             => []
  | (_, p) :: rest => Path.parts p ++ Path.partsOfFields rest

end

theorem Path.mem_parts {t : Segment} {p : Path} : t ∈ parts p ↔ ∃ s ∈ p, t ∈ s.parts := by
  induction p with
  | nil => simp [parts]
  | cons s p ih => simp [parts, ih]

theorem Path.mem_partsOfFields {t : Segment} {fields : List (String × Path)} :
    t ∈ partsOfFields fields ↔ ∃ f ∈ fields, t ∈ parts f.2 := by
  induction fields with
  | nil => simp [partsOfFields]
  | cons f fields ih => simp [partsOfFields, ih]

theorem Segment.mem_parts_self (s : Segment) : s ∈ s.parts := by
  cases s <;> simp [parts]

theorem Segment.mem_parts_construct {t : Segment} {gs : List (String × Path)} {g : String × Path}
    (hg : g ∈ gs) (ht : t ∈ Path.parts g.2) : t ∈ (Segment.construct gs).parts :=
  List.mem_cons_of_mem _ (Path.mem_partsOfFields.mpr ⟨g, hg, ht⟩)

-- Whether the rendering of a field is read for what it is: that of a path is no scalar of a document,
-- that of a container is no path, and floats are read from their own texts.
def Path.Unmistakable : Path → Prop
  | [.literal v] => v.Precise ∧ (v.isContainer = true → ∀ p, parse v.render.toList ≠ .ok p)
  | p => ∀ v, Json.read? (render p).toList = some v → v.isContainer = true

theorem Path.unmistakable_iff {p : Path} (h : ∀ v, .literal v ∉ p) :
    p.Unmistakable ↔ ∀ v, Json.read? (render p).toList = some v → v.isContainer = true := by
  unfold Unmistakable
  split
  case _ v => exact absurd List.mem_cons_self (h v)
  case _ => rfl

example : Json.read? (Path.render [.key "null" false]).toList = some .null := by decide +kernel

def Segment.Unmistakable : Segment → Prop
  | .construct fields => ∀ f ∈ fields, Path.Unmistakable f.2
  | _                 => True

namespace Grammar

variable {s : Segment} {p : Path} {o : Outline}

-- Whether an outline stands for a segment, unless one of the fields inside is mistaken.
def Recalls (o : Outline) (s : Segment) : Prop :=
  o.read = .ok s ↔ ∀ t ∈ s.parts, t.Unmistakable

-- Whether a segment is found in its own rendering.
structure Recovered (s : Segment) : Prop where
  starts : ∃ c cs, s.render.toList = c :: cs ∧ (c ≠ '.' ∧ c ≠ '\'' ∧ Text.isBlank c = false) ∧
    (s.isBracketed = true → c = '[')
  ends   : EndsVisibly s.render.toList
  found  : ∃ o, segment s.render.toList = .ok (some ([o], [])) ∧ AllClosed [o] ∧ Recalls o s

theorem recovered_of_readable (h : s.Readable) : Recovered s where
  starts := by
    obtain ⟨c, cs, hc, hs⟩ := start_render h
    obtain ⟨c', cs', hc', hdot, hblank⟩ := start_visible h
    cases hc.symm.trans hc'
    have hq : c ≠ '\'' ∧ (s.isBracketed = true → c = '[') := by
      rcases hs with ⟨_, rfl⟩ | ⟨hb, hw | ⟨_, rfl⟩⟩
      · exact ⟨by decide, fun _ => rfl⟩
      · exact ⟨fun e => absurd (e ▸ hw) (by decide), fun h => by simp [h] at hb⟩
      · exact ⟨by decide, fun h => by simp [h] at hb⟩
    exact ⟨c, cs, hc, ⟨hdot, hq.1, hblank⟩, hq.2⟩
  ends := endsVisibly_render h
  found := by
    obtain ⟨found, first, q, hseg, ht, hn, hq⟩ := segment_render (List.forall_mem_singleton.mpr h)
    obtain ⟨rfl, rfl⟩ : first = [s] ∧ q = [] := by
      cases List.append_eq_cons_iff.mp hq
      case inl hf => exact absurd hf.1 hn
      case inr hf =>
        obtain ⟨rest, rfl, hr⟩ := hf
        simpa using hr
    obtain ⟨o, ho, rfl⟩ : ∃ o, o.read = .ok s ∧ found = [o] := by
      cases mapM_eq_ok_iff_forall₂.mp ht with
      | cons ho hrest =>
        cases hrest
        exact ⟨_, ho, rfl⟩
    refine ⟨o, by simpa [Path.renderRest] using hseg, ?_, ?_⟩
    · intro t hm
      cases List.mem_singleton.mp (mem_of_tells ht hm)
      cases s <;> first | exact h.2 | trivial
    · have ht : ∀ t ∈ s.parts, t.Unmistakable := by
        cases s with
        | construct => cases h
        | _ => exact List.forall_mem_singleton.mpr trivial
      exact iff_of_true ho ht

theorem mapM_map_eq_ok_iff {α β ε : Type} {f : α → β} {k : β → Except ε α} {xs : List α} :
    (xs.map f).mapM k = .ok xs ↔ ∀ x ∈ xs, k (f x) = .ok x := by
  induction xs with
  | nil => simp [pure, Except.pure]
  | cons x xs ih =>
    rw [List.map_cons, List.mapM_cons, List.forall_mem_cons, ← ih]
    cases k (f x) <;> cases (xs.map f).mapM k <;> simp [bind, Except.bind, pure, Except.pure]

theorem toList_render_construct (gs : List (String × Path)) :
    (Segment.construct gs).render.toList = '{' :: ((Path.renderFields gs).toList ++ ['}']) := by
  simp [Segment.render]

theorem recovered_construct {gs : List (String × Path)} (h : ∀ g ∈ gs, Findable g)
    (hr : ∀ g ∈ gs, Outline.readField (fieldOutline g) = .ok g ↔
      g.2.Unmistakable ∧ ∀ t ∈ Path.parts g.2, t.Unmistakable) : Recovered (.construct gs) where
  starts := ⟨'{', _, toList_render_construct gs, by decide, fun h => Bool.noConfusion h⟩
  ends := ⟨'{' :: (Path.renderFields gs).toList, '}', toList_render_construct gs, by decide⟩
  found := by
    refine ⟨.construct (gs.map fieldOutline), ?_, ?_, ?_⟩
    · rw [toList_render_construct, segment, construct_render h]
      rfl
    · intro s hs
      cases List.mem_singleton.mp hs
    · have hp : (∀ t ∈ (Segment.construct gs).parts, t.Unmistakable) ↔
          ∀ g ∈ gs, g.2.Unmistakable ∧ ∀ t ∈ Path.parts g.2, t.Unmistakable := by
        rw [Segment.parts, List.forall_mem_cons]
        simp only [Path.mem_partsOfFields, Segment.Unmistakable]
        constructor
        case mp => exact fun h g hg => ⟨h.1 g hg, fun t hp => h.2 t ⟨g, hg, hp⟩⟩
        case mpr =>
          intro h
          refine ⟨fun g hg => (h g hg).1, ?_⟩
          rintro t ⟨g, hg, hp⟩
          exact (h g hg).2 t hp
      have hm : Except.map Segment.construct ((gs.map fieldOutline).mapM Outline.readField) =
          .ok (Segment.construct gs) ↔
            (gs.map fieldOutline).mapM Outline.readField = .ok gs := by
        cases (gs.map fieldOutline).mapM Outline.readField <;> simp [Except.map]
      rw [Recalls, Outline.read_construct, hm, mapM_map_eq_ok_iff, hp]
      exact forall₂_congr hr

theorem follows_of_recovered (h : ∀ s ∈ p, Recovered s) : Follows (Path.renderRest p).toList := by
  cases p with
  | nil => simp [Path.renderRest, Follows]
  | cons s rest =>
    obtain ⟨c, cs, hc, _, hb⟩ := (h s List.mem_cons_self).starts
    cases hs : s.isBracketed with
    | true  => simp [Path.renderRest, Follows, hs, hc, hb hs]
    | false => simp [Path.renderRest, Follows, hs]

theorem dropDot_of_recovered (h : Recovered s) (rest : List Char) :
    dropDot (s.render.toList ++ rest) = s.render.toList ++ rest := by
  obtain ⟨c, cs, hc, ⟨hdot, _⟩, _⟩ := h.starts
  simp [hc, dropDot, hdot]

theorem dropDot_renderRest_of_recovered (h : Recovered s) (rest : Path) :
    dropDot (Path.renderRest (s :: rest)).toList =
      s.render.toList ++ (Path.renderRest rest).toList := by
  cases hs : s.isBracketed with
  | true  => simpa [Path.renderRest, hs] using dropDot_of_recovered h (Path.renderRest rest).toList
  | false => simp [Path.renderRest, hs, dropDot]

-- Segments that are found in their own renderings are found one after another.
theorem more_of_recovered (h : ∀ s ∈ p, Recovered s) :
    ∃ found, more (Path.renderRest p).toList = .ok (found, []) ∧ List.Forall₂ Recalls found p := by
  induction p with
  | nil => exact ⟨[], more_nil, .nil⟩
  | cons s rest ih =>
    obtain ⟨hs, hrest⟩ := List.forall_mem_cons.mp h
    obtain ⟨o, ho, hc, hr⟩ := hs.found
    obtain ⟨found, hm, hf⟩ := ih hrest
    obtain ⟨r, hseg, hthen⟩ := segment_append (follows_of_recovered hrest) ho hc
    rw [← dropDot_renderRest_of_recovered hs] at hseg
    refine ⟨o :: found, ?_, .cons hr hf⟩
    rw [more_eq_thenMore hseg, hthen, List.nil_append, thenMore, hm]
    rfl

theorem outline_of_recovered {rest : Path} (h : ∀ t ∈ s :: rest, Recovered t) :
    ∃ found, outline (Path.render (s :: rest)).toList = .ok found ∧
      List.Forall₂ Recalls found (s :: rest) := by
  obtain ⟨hs, hrest⟩ := List.forall_mem_cons.mp h
  obtain ⟨o, ho, hc, hr⟩ := hs.found
  obtain ⟨found, hm, hf⟩ := more_of_recovered hrest
  obtain ⟨r, hseg, hthen⟩ := segment_append (follows_of_recovered hrest) ho hc
  have ht : (Path.render (s :: rest)).toList = s.render.toList ++ (Path.renderRest rest).toList := by
    simp [Path.render]
  rw [← dropDot_of_recovered hs] at hseg
  refine ⟨o :: found, ?_, .cons hr hf⟩
  rw [ht, outline_eq_thenMore hseg, hthen, List.nil_append, thenMore, hm]
  rfl

theorem visible_of_recovered (h : ∀ s ∈ p, Recovered s) : Visible (Path.render p).toList := by
  cases p with
  | nil => exact ⟨⟨'.', [], rfl, by decide, by decide⟩, [], '.', rfl, by decide⟩
  | cons s rest =>
    have ht : (Path.render (s :: rest)).toList =
        s.render.toList ++ (Path.renderRest rest).toList := by
      simp [Path.render]
    obtain ⟨c, cs, hc, ⟨_, hq, hb⟩, _⟩ := (h s List.mem_cons_self).starts
    rw [ht]
    exact ⟨⟨c, _, by rw [hc]; rfl, hq, hb⟩, endsVisibly_renderRest fun t ht => (h t ht).ends⟩

end Grammar

namespace Path

open Grammar

variable {p : Path}

theorem tells_iff_of_recalls {found : List Outline} (h : List.Forall₂ Recalls found p) :
    Tells found p ↔ ∀ t ∈ parts p, t.Unmistakable := by
  rw [Tells, mapM_eq_ok_iff_forall₂]
  induction h with
  | nil => exact iff_of_true .nil (by simp [parts])
  | cons ho _ ih =>
    rw [List.forall₂_cons, parts, List.forall_mem_append, ih]
    exact and_congr_left fun _ => ho

-- A path is read from its rendering again, unless one of the fields in its constructs is mistaken.
theorem parse_render_iff (h : ∀ s ∈ p, Recovered s) :
    parse (render p).toList = .ok p ↔ ∀ t ∈ parts p, t.Unmistakable := by
  have ht := (visible_of_recovered h).trim
  cases p with
  | nil =>
    have hp : parse (render []).toList = .ok [] := by rw [parse_eq, if_pos (.inr rfl)]
    exact iff_of_true hp (by simp [parts])
  | cons s rest =>
    obtain ⟨found, ho, hf⟩ := outline_of_recovered h
    obtain ⟨d, ds, hd, ⟨hdot, _⟩, _⟩ := (h s List.mem_cons_self).starts
    have hn : ¬ ((render (s :: rest)).toList = [] ∨ (render (s :: rest)).toList = ['.']) := by
      simp [render, hd, hdot]
    rw [parse_eq, ht, if_neg hn, ho]
    exact tells_iff_of_recalls hf

end Path

end JsonQuery
