import JsonQuery.Proofs.Fields

namespace JsonQuery

open JsonQuery.Balanced

-- Whether the names in a segment can be written in an expression.
def Segment.Legible : Segment → Prop
  | .key name _       => ∀ c ∈ name.toList, Quoted.isLegible c = true
  | .construct fields => ∀ f ∈ fields, ∀ c ∈ f.1.toList, Quoted.isLegible c = true
  | _                 => True

namespace Path

open Grammar

-- A segment of an expression that needs no further reading.
def SegmentOf (text : List Char) (s : Segment) : Prop :=
  ∃ found, outline (Text.trim text) = .ok found ∧ .ready s ∈ found

-- A field of a construct of an expression, and its text.
def FieldOf (text : List Char) (name : String) (inner : List Char) : Prop :=
  ∃ found fields, outline (Text.trim text) = .ok found ∧ .construct fields ∈ found ∧
    (name, some inner) ∈ fields

-- Whether the text of a field is written between single quotes.
def IsString (text : List Char) : Prop := Literal.singleQuoted? (Text.trim text) ≠ none

-- Whether an expression can stand in a field: in the strings between single quotes that are fields of
-- its own, nothing ends that field.
def Nestable (text : List Char) : Prop :=
  ∀ name inner, FieldOf text name inner → IsString inner → Neutral (Text.trim inner)

-- Whether all quotes of an expression are closed: those in its selectors and, at any depth, those in
-- its fields, where they hold nothing that ends a field around them.
inductive Tidy : List Char → Prop
  | intro {text : List Char}
      (selectors : ∀ s, SegmentOf text s → s.Tidy)
      (fields    : ∀ name inner, FieldOf text name inner → ¬ IsString inner → Tidy (Text.trim inner))
      (nestable  : ∀ name inner, FieldOf text name inner → ¬ IsString inner →
        Nestable (Text.trim inner)) : Tidy text

section

variable {text : List Char} {s : Segment} {found : List Outline}

theorem tidy_of_outline (h : outline (Text.trim text) = .ok found)
    (selectors : ∀ s, .ready s ∈ found → s.Tidy)
    (fields : ∀ fs, .construct fs ∈ found → ∀ name inner, (name, some inner) ∈ fs →
      ¬ IsString inner → Tidy (Text.trim inner) ∧ Nestable (Text.trim inner)) : Tidy text := by
  have hfield (name) (inner) (hf : FieldOf text name inner) (hs : ¬ IsString inner) :
      Tidy (Text.trim inner) ∧ Nestable (Text.trim inner) := by
    obtain ⟨found', fs, ho, hm, hf⟩ := hf
    cases h.symm.trans ho
    exact fields fs hm name inner hf hs
  refine .intro ?_ (fun n i hf hs => (hfield n i hf hs).1) fun n i hf hs => (hfield n i hf hs).2
  rintro s ⟨found', ho, hs⟩
  cases h.symm.trans ho
  exact selectors s hs

theorem nestable_of_outline (h : outline (Text.trim text) = .ok found)
    (fields : ∀ fs, .construct fs ∈ found → ∀ name inner, (name, some inner) ∈ fs →
      ¬ IsString inner) : Nestable text := by
  rintro name inner ⟨found', fs, ho, hm, hf⟩ hs
  cases h.symm.trans ho
  exact absurd hs (fields fs hm name inner hf)

theorem sized_of_segmentOf (h : SegmentOf text s) : s.Sized := by
  obtain ⟨found, ho, hs⟩ := h
  exact (spelled_outline ho).lawful _ hs

theorem isAddressable_of_segmentOf (h : SegmentOf text s) : s.isAddressable = true := by
  obtain ⟨found, ho, hs⟩ := h
  cases origin_of_outline ho _ hs with
  | concrete hc => exact Segment.isAddressable_of_isConcrete hc
  | bracket hb => exact isAddressable_of_bracket hb
  | children => rfl

theorem closed_of_tidy {p : Predicate} {raw : String} (hp : (Segment.selector p raw).Parsed)
    (ht : (Segment.selector p raw).Tidy) : Closed (raw.toList.drop 1) := by
  obtain ⟨_, _, hb⟩ := hp.selector
  obtain ⟨taken, e, _, h⟩ := predicate_of_bracketBody hb
  rw [Segment.Tidy, e] at ht
  rw [e]
  exact closed_of_closes h ht

theorem readable_of_segmentOf (h : SegmentOf text s) (hp : s.Parsed) (ht : s.Tidy)
    (hl : s.Legible) : s.Readable := by
  have ha := isAddressable_of_segmentOf h
  have hz := sized_of_segmentOf h
  cases s with
  | key => exact hl
  | index => exact hz
  | children => trivial
  | elements => trivial
  | slice => exact hz
  | selector => exact ⟨hp, closed_of_tidy hp ht⟩
  | call => cases ha
  | literal => cases ha
  | construct => cases ha

end

-- What is known of a path: its segments are found in its rendering, which can stand in the place of
-- the text that it was read from.
structure Restored (text : List Char) (p : Path) : Prop where
  recovered : ∀ s ∈ p, Recovered s
  covers    : Nestable text → Covers (Text.trim text) (render p).toList

-- What is known of a field.
structure RestoredField (f : String × Option (List Char)) (g : String × Path) : Prop
    extends FieldRecovered g where
  whole  : Outline.WholeField f → scan? 0 (render g.2).toList = some ⟨0, .outside⟩
  covers : ∀ inner, f.2 = some inner → (IsString inner → Neutral (Text.trim inner)) →
    Covers (Text.trim inner) (render g.2).toList

section

variable {name : String} {inner : List Char}

theorem restored_shorthand (hl : (Segment.key name false).Legible) :
    RestoredField (name, none) (name, [.key name false]) where
  toFieldRecovered := by
    have hr : Recovered (.key name false) := recovered_of_readable hl
    exact fieldRecovered_of_path name (List.forall_mem_singleton.mpr hr) (by simp)
  whole _ := neutral_render_key name 0
  covers := nofun

theorem restored_literal {v : Json} (hv : v.Printable Json.maxNesting)
    (hn : ¬ IsString inner → Neutral (Text.trim inner)) :
    RestoredField (name, some inner) (name, [.literal v]) := by
  have hr : Neutral (render [.literal v]).toList :=
    toList_render_literal v ▸ Draft.neutral_of_read? (Json.draft_of_render hv)
  refine ⟨fieldRecovered_of_literal name hv, fun _ => hr 0, fun inner' hi hs => ?_⟩
  cases hi
  by_cases h : IsString inner
  case pos => exact (hs h).covers hr
  case neg => exact (hn h).covers hr

theorem restored_path {p : Path} (h : Restored (Text.trim inner) p)
    (hl : ∀ v, .literal v ∉ p) (hn : Nestable (Text.trim inner)) :
    RestoredField (name, some inner) (name, p) := by
  have hc : Covers (Text.trim inner) (render p).toList := Text.trim_trim inner ▸ h.covers hn
  refine ⟨fieldRecovered_of_path name h.recovered hl, fun hw => ?_, fun inner' hi _ => ?_⟩
  · obtain ⟨whole, e, hs⟩ := hw inner rfl
    have hc : Covers whole (render p).toList := covers_trimEnd (covers_trim (e ▸ hc))
    exact (hc 0 _ hs).2
  · cases hi
    exact hc

theorem printable_ofText (text : List Char) :
    (Literal.ofText text).Printable Json.maxNesting := by
  cases hv : Json.read? (Text.trim text) with
  | some v =>
    rw [Literal.ofText_of_read? hv]
    exact Json.printable_of_read? hv
  | none =>
    cases hs : Literal.singleQuoted? (Text.trim text) with
    | some content => simp [Literal.ofText, hv, hs, Json.Printable]
    | none => simp [Literal.ofText, hv, hs, Json.Printable]

end

-- Whether the path of an expression is known that well if its names can be written.
def Restorable (text : List Char) : Prop :=
  ∀ p, parse text = .ok p → (∀ s ∈ parts p, s.Legible) → Restored text p

section

variable {text : List Char} {found : List Outline} {p : Path}
  (selectors : ∀ s, SegmentOf text s → s.Tidy)
  (fields : ∀ name inner, FieldOf text name inner → ¬ IsString inner → Restorable (Text.trim inner))
  (nestable : ∀ name inner, FieldOf text name inner → ¬ IsString inner →
    Nestable (Text.trim inner))

include fields nestable in
theorem restored_field {f : String × Option (List Char)} {g : String × Path}
    (hf : ∀ inner, f.2 = some inner → FieldOf text f.1 inner) (hr : Outline.readField f = .ok g)
    (hl : ∀ s ∈ parts g.2, s.Legible) : RestoredField f g := by
  obtain ⟨name, _ | inner⟩ := f
  case none =>
    cases hr
    exact restored_shorthand (hl _ (by simp [parts, Segment.parts]))
  case some =>
    obtain ⟨q, hq, e⟩ := map_eq_ok_iff.mp hr
    cases e
    have hf := hf inner rfl
    rcases Outline.fieldPath_eq_ok hq with ⟨v, hv, rfl⟩ | ⟨hs, rfl⟩ | ⟨hs, hq⟩
    · exact restored_literal (Json.printable_of_read? hv) fun _ => Json.neutral_of_read? hv
    · exact restored_literal (printable_ofText _) fun h => absurd hs h
    · have hs : ¬ IsString inner := not_not.mpr hs
      exact restored_path (fields name inner hf hs q hq hl)
        (fun _ => Outline.not_literal_of_parse hq) (nestable name inner hf hs)

include selectors fields nestable in
theorem restored_segment {o : Outline} {s : Segment} (ho : outline (Text.trim text) = .ok found)
    (hp : parse text = .ok p) (hm : o ∈ found) (hs : s ∈ p) (hr : o.read = .ok s)
    (hl : ∀ t ∈ s.parts, t.Legible) : Recovered s ∧ (Nestable text → o.Tidy) := by
  have hparsed : s.Parsed := ⟨String.ofList text, p, by simpa [ofString] using hp, hs⟩
  cases o with
  | ready t =>
    cases hr
    have ht : SegmentOf text s := ⟨found, ho, hm⟩
    have hread := readable_of_segmentOf ht hparsed (selectors s ht) (hl s s.mem_parts_self)
    exact ⟨recovered_of_readable hread, fun _ => selectors s ht⟩
  | call name argument =>
    obtain ⟨f, _, rfl⟩ := map_eq_ok_iff.mp hr
    exact ⟨recovered_of_readable hparsed, fun _ => trivial⟩
  | construct fs =>
    rw [Outline.read_construct] at hr
    obtain ⟨gs, hgs, rfl⟩ := map_eq_ok_iff.mp hr
    have hfield (f) (hf' : f ∈ fs) : ∀ inner, f.2 = some inner → FieldOf text f.1 inner :=
      fun inner hi => ⟨found, fs, ho, hm, hi ▸ hf'⟩
    have hres (f) (hf' : f ∈ fs) (g) (hg : g ∈ gs) (hfg : Outline.readField f = .ok g) :
        RestoredField f g :=
      restored_field fields nestable (hfield f hf') hfg
        fun t ht => hl t (Segment.mem_parts_construct hg ht)
    refine ⟨recovered_construct (fun g hg => ?_) fun g hg => ?_, fun hn f hf' inner q hi hq => ?_⟩
    · obtain ⟨f, hf', hfg⟩ := mem_of_mapM_eq_ok hgs g hg
      have h := hres f hf' g hg hfg
      exact ⟨hl _ (Segment.mem_parts_self _) g hg, h.visible,
        h.whole ((spelled_outline ho).lawful _ hm f hf')⟩
    · obtain ⟨f, hf', hfg⟩ := mem_of_mapM_eq_ok hgs g hg
      exact (hres f hf' g hg hfg).recalls
    · obtain ⟨g, hg, hfg⟩ := exists_of_mapM_eq_ok hgs f hf'
      cases hq.symm.trans hfg
      exact (hres f hf' _ hg hfg).covers inner hi (hn _ inner (hfield f hf' inner hi))

end

theorem covers_render {text : List Char} {p : Path} (h : Covers text (renderRest p).toList) :
    Covers text (render p).toList := by
  cases p with
  | nil =>
    have h' : Covers (text ++ []) ([] ++ ['.']) := h.append (neutral_nil.covers neutral_dot)
    rwa [List.append_nil] at h'
  | cons s rest =>
    cases hb : s.isBracketed with
    | true => simpa [renderRest, render, hb] using h
    | false =>
      have ht : (renderRest (s :: rest)).toList = ['.'] ++ (render (s :: rest)).toList := by
        simp [renderRest, render, hb]
      intro depth t hs
      obtain ⟨hm, hs⟩ := h depth t hs
      rw [ht, scan?_append (neutral_dot depth)] at hs
      exact ⟨hm, hs⟩

theorem restorable_of_tidy {text : List Char} (ht : Tidy text) : Restorable text := by
  induction ht with
  | @intro text selectors fields nestable ih =>
    intro p hp hl
    have h := hp
    rw [parse_eq] at h
    split at h
    case isTrue ht =>
      cases h
      refine ⟨nofun, fun _ => ?_⟩
      rcases ht with e | e
      · exact e ▸ neutral_nil.covers neutral_dot
      · exact e ▸ neutral_dot.covers neutral_dot
    case isFalse =>
      split at h
      case _ => cases h
      case _ found ho =>
        have hseg {o : Outline} {s : Segment} (hm : o ∈ found) (hs : s ∈ p) (hr : o.read = .ok s) :
            Recovered s ∧ (Nestable text → o.Tidy) :=
          restored_segment selectors ih nestable ho hp hm hs hr
            fun t ht => hl t (mem_parts.mpr ⟨s, hs, ht⟩)
        refine ⟨fun s hs => ?_, fun hn => ?_⟩
        · obtain ⟨o, hm, hr⟩ := mem_of_mapM_eq_ok h s hs
          exact (hseg hm hs hr).1
        · have ht : ∀ o ∈ found, o.Tidy := by
            intro o hm
            obtain ⟨s, hs, hr⟩ := exists_of_mapM_eq_ok h o hm
            exact (hseg hm hs hr).2 hn
          exact covers_render ((spelled_outline ho).covers p h ht)

-- Expressions with constructs are read again from the renderings of their paths if and only if no
-- field is mistaken there: no path for a scalar of a document, no container for a path, and no float
-- for another one.
theorem ofString_render_iff {expression : String} {p : Path} (h : ofString expression = .ok p)
    (hq : Tidy expression.toList) (hl : ∀ s ∈ parts p, s.Legible) :
    ofString (render p) = .ok p ↔ ∀ s ∈ parts p, s.Unmistakable :=
  parse_render_iff (restorable_of_tidy hq p h hl).recovered

theorem ofString_render_nested :
    let p : Path := [.construct [
      ("a", [.key "b" false, .index 0 false]),
      ("c", [.construct [("e", [.key "e" false])]]),
      ("f", [.literal .null])]]
    ofString "{a: .b[0], c: {e}, f: null}" = .ok p ∧ ofString (render p) = .ok p := by
  intro p
  have hb : outline ".b[0]".toList = .ok ([.key "b" false, .index 0 false].map .ready) :=
    outline_of_segment (by with_unfolding_all rfl)
  have he : outline "{e}".toList = .ok [.construct [("e", none)]] :=
    outline_of_segment (by with_unfolding_all rfl)
  have ho : outline "{a: .b[0], c: {e}, f: null}".toList = .ok [.construct
      [("a", some ".b[0]".toList), ("c", some "{e}".toList), ("f", some "null".toList)]] :=
    outline_of_segment (by with_unfolding_all rfl)
  have hn : outline "null".toList = .ok ([.key "null" false].map .ready) :=
    outline_of_segment (by with_unfolding_all rfl)
  have hpb : parse ".b[0]".toList = .ok [.key "b" false, .index 0 false] :=
    parse_of_outline hb (tells_ready _) (by decide) (by decide) (by decide)
  have hpe : parse "{e}".toList = .ok [.construct [("e", [.key "e" false])]] :=
    parse_of_outline he rfl (by decide) (by decide) (by decide)
  have h : ofString "{a: .b[0], c: {e}, f: null}" = .ok p := by
    have hfield (name : String) {text : List Char} {q : Path} (hq : parse text = .ok q)
        (hn : Json.read? text = none) (hs : Literal.singleQuoted? text = none)
        (ht : Text.trim text = text) : Outline.readField (name, some text) = .ok (name, q) := by
      have hl : ∀ v, .literal v ∉ q := fun _ => Outline.not_literal_of_parse hq
      have hc := (Outline.fieldPath_path_iff hl hs).mpr ⟨by simp [hn], hq⟩
      rw [Outline.readField, ht, hc]
      rfl
    have hf : Outline.readField ("f", some "null".toList) = .ok ("f", [.literal .null]) := by
      have hv : Json.read? "null".toList = some .null := by decide +kernel
      have ht : Text.trim "null".toList = "null".toList := by decide
      rw [Outline.readField, ht, Outline.fieldPath_scalar hv rfl]
      rfl
    refine parse_of_outline ho (.cons ?_ (tells_ready [])) (by decide) (by decide) (by decide)
    have ha := hfield "a" hpb (by decide +kernel) rfl (by decide)
    have hc := hfield "c" hpe (by decide +kernel) rfl (by decide)
    rw [Outline.read_construct, List.mapM_cons, ha, List.mapM_cons, hc, List.mapM_cons, hf]
    rfl
  have ht : Tidy "{a: .b[0], c: {e}, f: null}".toList := by
    have hfb : Tidy ".b[0]".toList ∧ Nestable ".b[0]".toList :=
      ⟨tidy_of_outline hb (by simp [Segment.Tidy]) (by simp), nestable_of_outline hb (by simp)⟩
    have hfe : Tidy "{e}".toList ∧ Nestable "{e}".toList :=
      ⟨tidy_of_outline he (by simp) (by simp), nestable_of_outline he (by simp)⟩
    have hff : Tidy "null".toList ∧ Nestable "null".toList :=
      ⟨tidy_of_outline hn (by simp [Segment.Tidy]) (by simp), nestable_of_outline hn (by simp)⟩
    refine tidy_of_outline ho (by simp) fun fs hfs name inner hi _ => ?_
    cases List.mem_singleton.mp hfs
    simp only [List.mem_cons, Prod.mk.injEq, Option.some.injEq, List.not_mem_nil, or_false] at hi
    rcases hi with ⟨_, rfl⟩ | ⟨_, rfl⟩ | ⟨_, rfl⟩
    · exact hfb
    · exact hfe
    · exact hff
  have hp : parts p = [p.head (List.cons_ne_nil _ _), .key "b" false, .index 0 false,
      .construct [("e", [.key "e" false])], .key "e" false, .literal .null] := rfl
  have hl : ∀ s ∈ parts p, s.Legible := by
    simp only [hp, p, List.head_cons, List.forall_mem_cons, List.not_mem_nil, false_implies,
      implies_true, and_true, true_and, Segment.Legible, ← List.all_eq_true]
    decide
  have hu : ∀ s ∈ parts p, s.Unmistakable := by
    have hread {q : Path} (hl : ∀ v, .literal v ∉ q) (hn : Json.read? (render q).toList = none) :
        Path.Unmistakable q := (unmistakable_iff hl).mpr (by simp [hn])
    have hb' := hread (q := [.key "b" false, .index 0 false]) (by simp) (by decide +kernel)
    have he' := hread (q := [.construct [("e", [.key "e" false])]]) (by simp) (by decide +kernel)
    have hk' := hread (q := [.key "e" false]) (by simp) (by decide +kernel)
    have hf' : Path.Unmistakable [.literal .null] := ⟨trivial, fun h => Bool.noConfusion h⟩
    simp only [hp, p, List.head_cons, List.forall_mem_cons, List.not_mem_nil, false_implies,
      implies_true, and_true, true_and, Segment.Unmistakable]
    exact ⟨⟨hb', he', hf'⟩, hk'⟩
  exact ⟨h, (ofString_render_iff h ht hl).mpr hu⟩

end Path

end JsonQuery
