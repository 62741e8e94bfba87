import JsonQuery.Path.Progress

namespace JsonQuery

namespace Grammar

-- Brackets one after another.
def brackets (text : List Char) : Except SyntaxError (List Segment × List Char) :=
  match h : bracket text with
  | .error e => .error e
  | .ok none => .ok ([], text)
  | .ok (some (s, rest)) =>
    have := length_of_bracket h
    (brackets rest).map fun (more, rest) => (s :: more, rest)
termination_by text.length

-- The fields after the first one. A comma without a field behind it is not read.
def moreFields (text : List Char) : List (String × Option (List Char)) × List Char :=
  match hc : comma? text with
  | none => ([], text)
  | some rest =>
    match hf : field? rest with
    | none => ([], text)
    | some (f, after) =>
      have : after.length < text.length :=
        Nat.lt_trans (length_of_field? hf).1 (length_of_comma? hc)
      let (more, after) := moreFields after
      (f :: more, after)
termination_by text.length

def fields (text : List Char) : List (String × Option (List Char)) × List Char :=
  match field? text with
  | none => ([], text)
  | some (f, rest) =>
    let (more, rest) := moreFields rest
    (f :: more, rest)

-- The fields of a construct and its closing brace.
def construct (text : List Char) : Except SyntaxError (Outline × List Char) :=
  let (fields, rest) := fields (skipSpace text)
  match skipSpace rest with
  | '}' :: rest => .ok (.construct fields, rest)
  | rest        => .error (.unclosedConstruct rest)

-- A key, an index or a function with any number of brackets behind it, or brackets alone.
def keyed (text : List Char) : Except SyntaxError (Found (List Outline)) := do
  let (first, rest) :=
    match ← head text with
    | some (o, rest) => ([o], rest)
    | none           => ([], text)
  let (more, rest) ← brackets rest
  let found := first ++ more.map .ready
  return if found.isEmpty then none else some (found, rest)

-- What may stand between two dots. With brackets these are several segments.
def segment (text : List Char) : Except SyntaxError (Found (List Outline)) :=
  match text with
  | '{' :: rest => (construct rest).map fun (o, rest) => some ([o], rest)
  | '*' :: rest =>
    let (s, rest) := withMark (.children false) rest
    .ok (some ([.ready s], rest))
  | _ => keyed text

def dropDot : List Char → List Char
  | '.' :: rest => rest
  | rest        => rest

theorem length_of_brackets {text rest : List Char} {found : List Segment}
    (h : brackets text = .ok (found, rest)) :
    rest.length ≤ text.length ∧ (found = [] → rest = text) ∧
      (found ≠ [] → rest.length < text.length) := by
  fun_induction brackets text generalizing found rest with
  | case1 => cases h
  | case2 => cases h; simp
  | case3 text s r hb _ ih =>
    have := length_of_bracket hb
    cases hr : brackets r with
    | error e => simp [hr, Except.map] at h
    | ok more =>
      obtain ⟨more, after⟩ := more
      simp only [hr, Except.map, Except.ok.injEq, Prod.mk.injEq] at h
      obtain ⟨rfl, rfl⟩ := h
      have := (ih hr).1
      refine ⟨by omega, by simp, fun _ => by omega⟩

theorem length_moreFields (text : List Char) :
    (moreFields text).2.length ≤ text.length ∧
      ∀ f ∈ (moreFields text).1, (f.2.getD []).length ≤ text.length := by
  fun_induction moreFields text with
  | case1 => simp
  | case2 => simp
  | case3 text r hc f after hf _ more after' he ih =>
    have h₁ := length_of_comma? hc
    have h₂ := length_of_field? hf
    rw [he] at ih
    dsimp only at ih ⊢
    refine ⟨by omega, ?_⟩
    intro g hg
    rcases List.mem_cons.mp hg with rfl | hg
    · omega
    · have := ih.2 g hg
      omega

theorem length_fields (text : List Char) :
    (fields text).2.length ≤ text.length ∧
      ∀ f ∈ (fields text).1, (f.2.getD []).length ≤ text.length := by
  unfold fields
  split
  case _ => simp
  case _ f rest hf =>
    have h₁ := length_of_field? hf
    have h₂ := length_moreFields rest
    dsimp only
    refine ⟨by omega, ?_⟩
    intro g hg
    rcases List.mem_cons.mp hg with rfl | hg
    · omega
    · have := h₂.2 g hg
      omega

theorem size_construct_le {n : Nat} {fields : List (String × Option (List Char))}
    (h : ∀ f ∈ fields, (f.2.getD []).length ≤ n) : (Outline.construct fields).size ≤ n := by
  simp only [Outline.size]
  induction fields with
  | nil => simp
  | cons f rest ih =>
    simp only [List.map_cons, List.foldr_cons]
    have h₁ := h f (by simp)
    have h₂ := ih fun g hg => h g (List.mem_cons_of_mem _ hg)
    omega

theorem length_of_construct {text rest : List Char} {o : Outline}
    (h : construct text = .ok (o, rest)) : rest.length < text.length ∧ o.size ≤ text.length := by
  have h₁ := length_skipSpace text
  have h₂ := length_fields (skipSpace text)
  have h₃ := length_skipSpace (fields (skipSpace text)).2
  simp only [construct] at h
  split at h
  case _ he =>
    cases h
    rw [he, List.length_cons] at h₃
    refine ⟨by omega, size_construct_le fun f hf => ?_⟩
    have := h₂.2 f hf
    omega
  case _ => cases h

theorem length_of_head {text rest : List Char} {o : Outline}
    (h : head text = .ok (some (o, rest))) : rest.length < text.length ∧ o.size < text.length := by
  unfold head at h
  split at h
  case _ name r hq =>
    have h₁ := Quoted.length_of_read? hq
    have h₂ := length_withMark (.key name false) r
    simp only [Except.ok.injEq, Option.some.injEq, Prod.mk.injEq] at h
    rw [← h.1, ← h.2]
    simp only [Outline.size]
    omega
  case _ =>
    split at h
    case _ => cases h
    case _ word r hw =>
      have h₁ := (length_of_word? hw).1
      split at h
      case isTrue =>
        split at h
        case _ r =>
          rw [List.length_cons] at h₁
          split at h
          case _ hc =>
            have h₂ := length_of_cut? hc
            cases h
            simp only [Outline.size, Option.getD_some, List.length_drop]
            omega
          case _ => cases h
        case _ =>
          cases h
          simp only [Outline.size, Option.getD_none, List.length_nil]
          omega
      case isFalse =>
        have h₂ := length_question r
        simp only [Except.ok.injEq, Option.some.injEq, Prod.mk.injEq] at h
        rw [← h.1, ← h.2]
        simp only [Outline.size]
        omega

theorem length_of_keyed {text rest : List Char} {found : List Outline}
    (h : keyed text = .ok (some (found, rest))) :
    rest.length < text.length ∧ ∀ o ∈ found, o.size < text.length := by
  have ready (more : List Segment) (o : Outline) (ho : o ∈ more.map Outline.ready) :
      o.size = 0 := by
    obtain ⟨s, -, rfl⟩ := List.mem_map.mp ho
    rfl
  unfold keyed at h
  cases hh : head text with
  | error e => simp [hh, bind, Except.bind] at h
  | ok first =>
    cases first with
    | none =>
      cases hb : brackets text with
      | error e => simp [hh, hb, bind, Except.bind] at h
      | ok more =>
        obtain ⟨more, after⟩ := more
        have h₁ := length_of_brackets hb
        simp only [hh, hb, bind, Except.bind, pure, Except.pure, List.nil_append,
          Except.ok.injEq] at h
        split at h
        case isTrue => cases h
        case isFalse hm =>
          cases h
          have := h₁.2.2 (by simpa using hm)
          refine ⟨by omega, fun o ho => ?_⟩
          have := ready more o ho
          omega
    | some first =>
      obtain ⟨o, r⟩ := first
      have h₀ := length_of_head hh
      cases hb : brackets r with
      | error e => simp [hh, hb, bind, Except.bind] at h
      | ok more =>
        obtain ⟨more, after⟩ := more
        have h₁ := (length_of_brackets hb).1
        simp only [hh, hb, bind, Except.bind, pure, Except.pure, List.singleton_append,
          Except.ok.injEq, List.isEmpty_cons, Bool.false_eq_true, if_false, Option.some.injEq,
          Prod.mk.injEq] at h
        obtain ⟨rfl, rfl⟩ := h
        refine ⟨by omega, fun p hp => ?_⟩
        rcases List.mem_cons.mp hp with rfl | hp
        · omega
        · have := ready more p hp
          omega

theorem length_of_segment {text rest : List Char} {found : List Outline}
    (h : segment text = .ok (some (found, rest))) :
    rest.length < text.length ∧ ∀ o ∈ found, o.size < text.length := by
  unfold segment at h
  split at h
  case _ r =>
    cases hc : construct r with
    | error e => simp [hc, Except.map] at h
    | ok o =>
      obtain ⟨o, after⟩ := o
      have := length_of_construct hc
      simp only [hc, Except.map, Except.ok.injEq, Option.some.injEq, Prod.mk.injEq] at h
      obtain ⟨rfl, rfl⟩ := h
      simp only [List.length_cons, List.mem_singleton, forall_eq]
      omega
  case _ r =>
    have := length_withMark (.children false) r
    simp only [Except.ok.injEq, Option.some.injEq, Prod.mk.injEq] at h
    rw [← h.1, ← h.2]
    simp only [List.length_cons, List.mem_singleton, forall_eq, Outline.size]
    omega
  case _ => exact length_of_keyed h

theorem length_dropDot (text : List Char) : (dropDot text).length ≤ text.length := by
  unfold dropDot
  split <;> simp

-- All further segments, each with an optional dot in front.
def more (text : List Char) : Except SyntaxError (List Outline × List Char) :=
  match h : segment (dropDot text) with
  | .error e => .error e
  | .ok none => .ok ([], text)
  | .ok (some (found, rest)) =>
    have : rest.length < text.length :=
      Nat.lt_of_lt_of_le (length_of_segment h).1 (length_dropDot text)
    (more rest).map fun (others, rest) => (found ++ others, rest)
termination_by text.length

theorem size_of_more {text rest : List Char} {found : List Outline}
    (h : more text = .ok (found, rest)) : ∀ o ∈ found, o.size < text.length := by
  fun_induction more text generalizing found rest with
  | case1 => cases h
  | case2 => cases h; simp
  | case3 text first r hs _ ih =>
    have h₁ := length_of_segment hs
    have h₂ := length_dropDot text
    cases hr : more r with
    | error e => simp [hr, Except.map] at h
    | ok others =>
      obtain ⟨others, after⟩ := others
      simp only [hr, Except.map, Except.ok.injEq, Prod.mk.injEq] at h
      obtain ⟨rfl, rfl⟩ := h
      intro o ho
      rcases List.mem_append.mp ho with ho | ho
      · have := h₁.2 o ho
        omega
      · have := ih hr o ho
        omega

-- The segments of a whole expression.
def outline (text : List Char) : Except SyntaxError (List Outline) := do
  match ← segment (dropDot text) with
  | none => .error (.noSegment (dropDot text))
  | some (found, rest) =>
    let (others, rest) ← more rest
    if rest.isEmpty then return found ++ others else .error (.leftOver rest)

theorem size_of_outline {text : List Char} {found : List Outline}
    (h : outline text = .ok found) : ∀ o ∈ found, o.size < text.length := by
  have h₀ := length_dropDot text
  unfold outline at h
  cases hs : segment (dropDot text) with
  | error e => simp [hs, bind, Except.bind] at h
  | ok first =>
    cases first with
    | none => simp [hs, bind, Except.bind] at h
    | some first =>
      obtain ⟨first, r⟩ := first
      have h₁ := length_of_segment hs
      cases hr : more r with
      | error e => simp [hs, hr, bind, Except.bind] at h
      | ok others =>
        obtain ⟨others, after⟩ := others
        simp only [hs, hr, bind, Except.bind] at h
        split at h
        case isTrue =>
          cases h
          intro o ho
          rcases List.mem_append.mp ho with ho | ho
          · have := h₁.2 o ho
            omega
          · have := size_of_more hr o ho
            omega
        case isFalse => cases h

end Grammar

end JsonQuery
