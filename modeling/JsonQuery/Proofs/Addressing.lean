import JsonQuery.Proofs.Joining
import JsonQuery.Proofs.Lens

namespace JsonQuery

-- The segment that names a step.
def Segment.ofStep : Step → Segment
  | .key name => .key name false
  | .index i  => .index i false

-- The path that names the values at a location.
def Path.ofLocation (l : Location) : Path := l.map Segment.ofStep

-- Whether an expression can hold the step in quotes.
def Step.isLegible : Step → Bool
  | key name => name.toList.all Quoted.isLegible
  | index _  => true

namespace Quoted

-- A control character that is written as a code, or with a letter that stands for none here.
theorem escape_illegible {c : Char} (h : isLegible c = false) :
    ∃ e rest, Json.escape c = '\\' :: e :: rest ∧ double? e = none := by
  have ⟨hc, hn, hr, ht⟩ : c.toNat < 0x20 ∧ c ≠ '\n' ∧ c ≠ '\r' ∧ c ≠ '\t' := by
    simpa [isLegible, and_assoc] using h
  have hd : c ≠ '"' := fun e => absurd (e ▸ hc) (by decide)
  have hb : c ≠ '\\' := fun e => absurd (e ▸ hc) (by decide)
  rw [Json.escape, if_neg hd, if_neg hb, if_pos hc]
  have ne {d : Char} (hd : c ≠ d) : c.toNat ≠ d.toNat := fun e => hd (Char.toNat_inj.mp e)
  unfold Json.shortEscape
  split
  case _ he =>
    split at he
    case _ => exact ⟨_, _, congrArg (fun e => ['\\', e]) (Option.some.inj he).symm, rfl⟩
    case _ hc => exact absurd hc (ne ht)
    case _ hc => exact absurd hc (ne hn)
    case _ => exact ⟨_, _, congrArg (fun e => ['\\', e]) (Option.some.inj he).symm, rfl⟩
    case _ hc => exact absurd hc (ne hr)
    case _ => cases he
  case _ => exact ⟨_, _, rfl, rfl⟩

-- What an illegible character is written as in quotes is not read again.
theorem contents?_illegible {cs : List Char} (h : ∃ c ∈ cs, isLegible c = false)
    (rest : List Char) : contents? '"' double? (cs.flatMap Json.escape ++ rest) = none := by
  induction cs with
  | nil => simp at h
  | cons c cs ih =>
    rw [List.flatMap_cons, List.append_assoc]
    cases hc : isLegible c with
    | false =>
      have ⟨e, after, he, hd⟩ := escape_illegible hc
      rw [he, List.cons_append, List.cons_append, contents?, hd]
      rfl
    | true =>
      have h : ∃ c ∈ cs, isLegible c = false := by simpa [hc] using h
      rw [contents?_escape hc, ih h]
      rfl

theorem read?_illegible {s : String} (h : s.toList.all isLegible = false) (rest : List Char) :
    read? ((Json.quoted s).toList ++ rest) = none := by
  have h : ∃ c ∈ s.toList, isLegible c = false := by simpa using h
  simp [Json.toList_quoted, read?, contents?_illegible h]

end Quoted

namespace Grammar

variable {name : String} {rest : List Char}

theorem isLegible_of_isWordChar {c : Char} (h : isWordChar c = true) :
    Quoted.isLegible c = true := by
  cases hl : Quoted.isLegible c with
  | true  => rfl
  | false =>
    have hn : ∀ n ∈ List.range 0x20, isWordChar (Char.ofNat n) = false := by decide +kernel
    have hl : c.toNat < 0x20 := by
      simp only [Quoted.isLegible, Bool.or_eq_false_iff, decide_eq_false_iff_not, not_le] at hl
      omega
    have hc := hn c.toNat (List.mem_range.mpr hl)
    rw [Char.ofNat_toNat, h] at hc
    cases hc

theorem isPlainKey_eq_false (h : name.toList.all Quoted.isLegible = false) :
    isPlainKey name = false := by
  refine Bool.eq_false_iff.mpr fun hp => ?_
  have hl := List.all_eq_true.mpr fun c hc =>
    isLegible_of_isWordChar ((isPlainKey_eq_true hp).2.1 c hc)
  simp [h] at hl

theorem bracket_illegible (h : name.toList.all Quoted.isLegible = false) (rest : List Char) :
    ∃ e, bracket ('[' :: ((Json.quoted name).toList ++ rest)) = .error e := by
  have hq := Quoted.read?_illegible h rest
  rw [Json.toList_quoted, List.cons_append, List.cons_append] at hq ⊢
  have hi := integer?_eq_none (c := '"') rfl (name.toList.flatMap Json.escape ++ ['"'] ++ rest)
  have hs : slice ('"' :: (name.toList.flatMap Json.escape ++ ['"'] ++ rest)) = .ok none := by
    simp only [slice, bound, hi, skipSpace_cons (c := '"') rfl]
    rfl
  have hb : bracketBody ('"' :: (name.toList.flatMap Json.escape ++ ['"'] ++ rest)) = .ok none := by
    simp only [bracketBody, hq, hs, hi]
    rfl
  rw [bracket, skipSpace_cons (c := '"') rfl, hb]
  exact ⟨_, rfl⟩

variable {text : List Char}

theorem brackets_of_error {e : SyntaxError} (h : bracket text = .error e) :
    brackets text = .error e := by
  rw [brackets]
  split
  case _ he =>
    cases he.symm.trans h
    rfl
  case _ he => cases he.symm.trans h
  case _ he => cases he.symm.trans h

theorem more_of_bracket_error {e : SyntaxError} (h : bracket text = .error e) :
    more text = .error e := by
  rw [more_eq_brackets, brackets_of_error h]
  rfl

theorem outline_of_bracket_error {e : SyntaxError} (h : bracket ('[' :: text) = .error e) :
    outline ('[' :: text) = .error e := by
  have hh : head ('[' :: text) = .ok none := rfl
  have hk : keyed ('[' :: text) = .error e := by
    simp [keyed, hh, brackets_of_error h, bind, Except.bind]
  exact outline_eq_thenMore (r := .error e) hk

-- A path is not read from its text again if one of its keys cannot be read.
theorem outline_illegible {p q : Path} (hp : ∀ s ∈ p, s.Readable)
    (h : name.toList.all Quoted.isLegible = false) :
    ∃ e, outline (Path.render (p ++ .key name false :: q)).toList = .error e := by
  have hk : (Path.renderRest (.key name false :: q)).toList =
      '[' :: ((Json.quoted name).toList ++ ']' :: (Path.renderRest q).toList) := by
    simp [Path.renderRest, Segment.render, Segment.isBracketed, Segment.mark,
      isPlainKey_eq_false h]
  obtain ⟨e, he⟩ := bracket_illegible h (']' :: (Path.renderRest q).toList)
  cases p with
  | nil =>
    have ht : (Path.render (.key name false :: q)).toList =
        (Path.renderRest (.key name false :: q)).toList := by
      simp [Path.render, Path.renderRest, Segment.isBracketed, isPlainKey_eq_false h]
    exact ⟨e, by rw [List.nil_append, ht, hk, outline_of_bracket_error he]⟩
  | cons s p =>
    obtain ⟨found, ho, ht⟩ := outline_render hp
    have hc : AllClosed found := fun s hs => by
      have hr := hp s (mem_of_tells ht hs)
      cases s <;> first | exact hr.2 | trivial
    have hf : Follows ('[' :: ((Json.quoted name).toList ++ ']' :: (Path.renderRest q).toList)) := by
      simp [Follows]
    have htext : (Path.render (s :: p ++ .key name false :: q)).toList =
        (Path.render (s :: p)).toList ++
          '[' :: ((Json.quoted name).toList ++ ']' :: (Path.renderRest q).toList) := by
      rw [← hk, List.cons_append, Path.render, Path.render, String.toList_append,
        String.toList_append, toList_renderRest_append, List.append_assoc]
    refine ⟨e, ?_⟩
    rw [htext, outline_append hf ho hc, thenMore, more_of_bracket_error he]
    rfl

end Grammar

namespace Segment

variable {c d : Json} {t : Step}

theorem isConcrete_ofStep (t : Step) : (ofStep t).isConcrete = true := by
  cases t <;> rfl

theorem steps_ofStep (h : c.child? t = some d) : (ofStep t).steps c = [t] := by
  cases c <;> cases t <;> simp only [Json.child?, reduceCtorEq] at h
  case arr.index items i =>
    obtain ⟨hi, _⟩ := List.getElem?_eq_some_iff.mp h
    simp [ofStep, steps, resolveIndex_ofNat hi]
  case obj.key ms k => simp [ofStep, steps, Members.contains, h]

theorem readable_ofStep (hc : c.WellFormed) (h : c.child? t = some d) (ht : t.isLegible = true) :
    (ofStep t).Readable := by
  cases t with
  | key name => exact List.all_eq_true.mp ht
  | index i =>
    cases c <;> simp only [Json.child?, reduceCtorEq] at h
    case arr items =>
      obtain ⟨hi, _⟩ := List.getElem?_eq_some_iff.mp h
      have hl := hc.length_lt
      exact Slice.isWord_iff.mpr ⟨by omega, by omega⟩

end Segment

namespace Path

variable {v c : Json} {l : Location} {o : Options}

theorem isConcrete_ofLocation (l : Location) : (ofLocation l).isConcrete = true := by
  simp [isConcrete, ofLocation, Segment.isConcrete_ofStep]

theorem deepest_ofLocation (h : v.at? l = some c) (m : Location) :
    (View.mk m v none).deepest (ofLocation l) = (⟨m ++ l, c, none⟩, []) := by
  induction l generalizing v m with
  | nil =>
    cases h
    simp [ofLocation, View.deepest]
  | cons t l ih =>
    rw [Json.at?_cons] at h
    obtain ⟨d, hd, h⟩ := Option.bind_eq_some_iff.mp h
    rw [ofLocation, List.map_cons, View.deepest,
      View.follow_eq_singleton (Segment.isConcrete_ofStep t) rfl (Segment.steps_ofStep hd) hd]
    simpa [ofLocation] using ih h (m ++ [t])

theorem get_ofLocation (h : v.at? l = some c) (hl : l.length ≤ o.maxDepth) :
    Query.get ⟨ofLocation l, o⟩ v = .ok [c] :=
  get_of_deepest o (isConcrete_ofLocation l) (deepest_ofLocation h [])
    (by simpa [ofLocation] using hl)

theorem readable_ofLocation (hv : v.WellFormed) (h : v.at? l = some c)
    (hl : l.all Step.isLegible = true) : ∀ s ∈ ofLocation l, s.Readable := by
  induction l generalizing v with
  | nil => simp [ofLocation]
  | cons t l ih =>
    rw [Json.at?_cons] at h
    have ⟨d, hd, h⟩ := Option.bind_eq_some_iff.mp h
    have ⟨ht, hl⟩ := Bool.and_eq_true_iff.mp hl
    exact List.forall_mem_cons.mpr
      ⟨Segment.readable_ofStep hv hd ht, ih (hv.child? hd) h hl⟩

theorem exists_illegible (h : l.all Step.isLegible = false) : ∃ first name rest,
    l = first ++ .key name :: rest ∧ first.all Step.isLegible = true ∧
      name.toList.all Quoted.isLegible = false := by
  induction l with
  | nil => cases h
  | cons t l ih =>
    cases ht : t.isLegible with
    | false =>
      cases t with
      | key name => exact ⟨[], name, l, rfl, rfl, ht⟩
      | index i  => cases ht
    | true =>
      have ⟨first, name, rest, e, hf, hn⟩ := ih (by simpa [ht] using h)
      exact ⟨t :: first, name, rest, by rw [e]; rfl, by simp [ht, hf], hn⟩

theorem start_ofStep (t : Step) : ∃ c cs, (Segment.ofStep t).render.toList = c :: cs ∧
    c ≠ '.' ∧ Text.isBlank c = false := by
  cases t with
  | index i => exact ⟨'[', _, by simp [Segment.ofStep, Segment.render]; rfl, by decide, by decide⟩
  | key name =>
    cases hp : isPlainKey name with
    | false =>
      exact ⟨'[', _, by simp [Segment.ofStep, Segment.render, hp]; rfl, by decide, by decide⟩
    | true =>
      obtain ⟨hn, hw, _⟩ := Grammar.isPlainKey_eq_true hp
      obtain ⟨c, cs, e⟩ := List.exists_cons_of_ne_nil hn
      have hc := hw c (e ▸ List.mem_cons_self)
      exact ⟨c, _, by simp [Segment.ofStep, Segment.render, hp, e]; rfl,
        fun e => absurd (e ▸ hc) (by decide), Grammar.isBlank_of_isWordChar hc⟩

-- The text of a location is one that the grammar sees as it is.
theorem text_ofLocation (t : Step) (l : Location) :
    let text := (render (ofLocation (t :: l))).toList
    Text.trim text = text ∧ text ≠ [] ∧ text ≠ ['.'] := by
  have ⟨c, cs, hc, hd, hb⟩ := start_ofStep t
  have hends : ∀ s ∈ Segment.ofStep t :: ofLocation l, Grammar.EndsVisibly s.render.toList :=
    fun s hs => Grammar.endsVisibly_concrete
      (List.all_eq_true.mp (isConcrete_ofLocation (t :: l)) s hs)
  have he := Grammar.endsVisibly_renderRest hends
  have ht : (render (ofLocation (t :: l))).toList =
      c :: (cs ++ (renderRest (ofLocation l)).toList) := by
    simp [ofLocation, render, hc]
  refine ⟨Text.trim_of_visible ht hb ?_, by simp [ht], by simp [ht, hd]⟩
  rwa [hc, List.cons_append, ← ht] at he

-- The text of a location leads to the value there, unless it holds a key with a control character
-- that expressions cannot spell. Then it is no expression.
theorem get_render_location (o : Options) (hv : v.WellFormed) (h : v.at? l = some c)
    (hl : l.length ≤ o.maxDepth) :
    (l.all Step.isLegible = true → ∃ p, ofString (render (ofLocation l)) = .ok p ∧
      Query.get ⟨p, o⟩ v = .ok [c]) ∧
    (l.all Step.isLegible = false → ∃ e, ofString (render (ofLocation l)) =
      .error (.malformed (render (ofLocation l)).toList e)) := by
  constructor
  case left =>
    intro hleg
    refine ⟨ofLocation l, ?_, get_ofLocation h hl⟩
    cases l with
    | nil => rw [ofString, parse_eq]; rfl
    | cons t l =>
      obtain ⟨ht, hn, hd⟩ := text_ofLocation t l
      obtain ⟨found, ho, hf⟩ := Grammar.outline_render (readable_ofLocation hv h hleg)
      exact parse_of_outline ho hf ht hn hd
  case right =>
    intro hleg
    cases l with
    | nil => cases hleg
    | cons t l =>
      obtain ⟨ht, hn, hd⟩ := text_ofLocation t l
      obtain ⟨first, name, rest, e, hf, hk⟩ := exists_illegible hleg
      have hat : v.at? (first ++ .key name :: rest) = some c := e ▸ h
      rw [Json.at?_append] at hat
      obtain ⟨d, hd', _⟩ := Option.bind_eq_some_iff.mp hat
      obtain ⟨err, he⟩ := Grammar.outline_illegible (q := ofLocation rest)
        (readable_ofLocation hv hd' hf) hk
      have hp : ofLocation (t :: l) = ofLocation first ++ .key name false :: ofLocation rest := by
        simp [e, ofLocation, Segment.ofStep]
      rw [← hp] at he
      exact ⟨err, by rw [ofString, parse_eq, ht, if_neg (by simp [hn, hd]), he]⟩

-- Keys that need quotes, one that looks like a number and one with a control character.
theorem get_render_location_quoted :
    let l : Location := [.key "7", .index 1, .key "a\"]\n"]
    let v : Json := .obj [("7", .arr [.null, .obj [("a\"]\n", .bool true), ("\x08", .null)]])]
    (∃ p, Path.ofString (render (ofLocation l)) = .ok p ∧
      Query.get ⟨p, .default⟩ v = .ok [.bool true]) ∧
    ∃ e, Path.ofString (render (ofLocation [.key "7", .index 1, .key "\x08"])) =
      .error (.malformed (render (ofLocation [.key "7", .index 1, .key "\x08"])).toList e) := by
  intro l v
  have hv : v.WellFormed := by
    simp [v, Json.WellFormed, Json.WellFormedItems, Json.WellFormedMembers, Members.keys]
  exact ⟨(get_render_location .default hv rfl (by decide)).1 rfl,
    (get_render_location .default hv rfl (by decide)).2 rfl⟩

end Path

end JsonQuery
