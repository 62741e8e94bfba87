import JsonQuery.Proofs.Trimming

namespace JsonQuery

open JsonQuery.Balanced

namespace Balanced

namespace Scan

variable {stops stops' : List Char} {depth depth' : Nat} {mark mark' : Mark} {s s' : Scan}
  {text : List Char} {c : Char}

section

variable (hq : isQuote c = false) (ho : opens c = false)

include hq ho

theorem next?_enclosed : next? stops ⟨depth + 1, .outside⟩ c =
    some ⟨if closes c then depth else depth + 1, .outside⟩ := by
  cases hc : closes c <;> simp [next?, hq, ho, hc]

theorem next?_unenclosed : next? stops ⟨0, .outside⟩ c =
    if c ∈ stops then none else some ⟨0, .outside⟩ := by
  cases hc : closes c <;> simp [next?, hq, ho, hc]

end

-- A character is met one level further out and one level further in. Closing brackets are not met
-- in the same way where nothing is open, and from there on both scans go on alike.
theorem next?_closers (hs : ∀ c ∈ stops', closes c = true)
    (h : next? stops ⟨depth, mark⟩ c = some s) (h' : next? stops ⟨depth + 1, mark⟩ c = some s') :
    s' = s ∨ s' = ⟨s.depth + 1, s.mark⟩ ∧ next? stops' ⟨depth, mark⟩ c = some s := by
  cases mark with
  | inside q | escaped q =>
    cases h
    cases h'
    exact .inr ⟨rfl, rfl⟩
  | outside =>
    cases hq : isQuote c with
    | true =>
      simp only [next?, hq, if_true, Option.some.injEq] at h h' ⊢
      exact .inr ⟨by simp [← h, ← h'], h⟩
    | false =>
      cases ho : opens c with
      | true =>
        simp only [next?, hq, ho, Bool.false_eq_true, if_false, if_true, Option.some.injEq]
          at h h' ⊢
        exact .inr ⟨by simp [← h, ← h'], h⟩
      | false =>
        rw [next?_enclosed hq ho] at h'
        cases h'
        cases depth with
        | zero =>
          rw [next?_unenclosed hq ho] at h ⊢
          split at h <;> cases h
          cases hc : closes c with
          | true  => exact .inl rfl
          | false => exact .inr ⟨rfl, if_neg fun hm => Bool.noConfusion (hc.symm.trans (hs c hm))⟩
        | succ depth =>
          rw [next?_enclosed hq ho] at h ⊢
          cases h
          exact .inr ⟨by cases closes c <;> rfl, rfl⟩

theorem run?_closers (hs : ∀ c ∈ stops', closes c = true)
    (h : run? stops ⟨depth, mark⟩ text = some ⟨depth', mark'⟩)
    (h' : run? stops ⟨depth + 1, mark⟩ text = some ⟨depth' + 1, mark'⟩) :
    run? stops' ⟨depth, mark⟩ text = some ⟨depth', mark'⟩ := by
  induction text generalizing depth mark with
  | nil =>
    cases h
    rfl
  | cons c text ih =>
    rw [run?_cons] at h h' ⊢
    obtain ⟨⟨d, m⟩, hn, h⟩ := Option.bind_eq_some_iff.mp h
    obtain ⟨s', hn', h'⟩ := Option.bind_eq_some_iff.mp h'
    cases next?_closers hs hn hn'
    case inl e =>
      rw [e, h] at h'
      simp at h'
    case inr e =>
      rw [e.1] at h'
      rw [e.2]
      exact ih h h'

end Scan

-- A text that is passed at every depth holds no closing bracket that it has not opened.
theorem Neutral.run? {stops text : List Char} (hs : ∀ c ∈ stops, Balanced.closes c = true)
    (h : Neutral text) (depth : Nat) :
    Scan.run? stops ⟨depth, .outside⟩ text = some ⟨depth, .outside⟩ :=
  Scan.run?_closers hs (h depth) (h (depth + 1))

end Balanced

namespace Lexeme

variable {stops text rest : List Char} {l : Lexeme} {h h' : Nat}

theorem eq_of_read?_comma (hr : read? text = some (comma, rest)) : text = [','] ++ rest := by
  unfold read? at hr
  split at hr
  case h_5 =>
    cases hr
    rfl
  case h_10 | h_11 | h_12 =>
    obtain ⟨_, _, e⟩ := Option.map_eq_some_iff.mp hr
    cases e
  all_goals cases hr

-- What is read as a lexeme inside of a container moves a scan that is one level further out, unless
-- it closes that container.
theorem run?_of_read? (hs : ∀ c ∈ stops, closes c = true) (hr : read? text = some (l, rest))
    (hm : l.Moves (h + 1) (h' + 1)) : ∃ taken, text = taken ++ rest ∧
      Scan.run? stops ⟨h, .outside⟩ taken = some ⟨h', .outside⟩ := by
  by_cases hl : l = comma
  case pos =>
    subst hl
    cases Nat.succ.inj hm.1
    have hc : ',' ∉ stops := fun hc => Bool.noConfusion (hs ',' hc)
    refine ⟨[','], eq_of_read?_comma hr, ?_⟩
    exact run?_other rfl rfl rfl (by simp [hc])
  case neg =>
    have hm' : l.Moves h h' := by
      cases l <;> first | exact absurd rfl hl | exact Nat.succ.inj hm
    obtain ⟨taken, ht, hscan⟩ := tracks_of_read? hr
    have hinner := hscan 0 _ _ hm'
    have houter := hscan 0 _ _ hm
    rw [Nat.zero_add, Nat.zero_add] at hinner houter
    exact ⟨taken, ht, Scan.run?_closers hs hinner houter⟩

theorem closes_of_read? (hr : read? text = some (l, rest)) (hm : l.Moves (h + 1) 0) :
    h = 0 ∧ ∃ c, closes c = true ∧ text = c :: rest := by
  unfold read? at hr
  split at hr
  case h_2 | h_4 =>
    cases hr
    exact ⟨Nat.succ.inj hm, _, rfl, rfl⟩
  case h_5 =>
    cases hr
    cases hm.1
  case h_10 | h_11 | h_12 =>
    obtain ⟨_, _, e⟩ := Option.map_eq_some_iff.mp hr
    cases e
    cases hm
  all_goals
    cases hr
    cases hm

end Lexeme

namespace Draft.State

variable {nesting : Nat} {s s' : State} {stack : List Open} {l : Lexeme} {ls : List Lexeme}
  {d d' : Draft} {text stops : List Char}

theorem exists_done_of_place (h : (place d stack).height = 0) : ∃ d', place d stack = done d' := by
  match stack with
  | [] => exact ⟨d, rfl⟩
  | .array _ :: _ | .object _ _ :: _ => cases h

-- With the last container the document is complete.
theorem exists_done_of_next (hn : next nesting s l = some s') (h : s'.height = 0) :
    ∃ d, s' = done d := by
  have hstart {stack} (hn : start nesting stack l = some s') : ∃ d, s' = done d := by
    unfold start at hn
    split at hn
    case h_5 | h_6 =>
      split at hn <;> cases hn
      cases h
    case h_7 => cases hn
    all_goals
      cases hn
      exact exists_done_of_place h
  unfold next at hn
  split at hn
  case h_1 | h_3 => exact hstart hn
  case h_2 | h_4 | h_9 | h_11 =>
    cases hn
    exact exists_done_of_place h
  case h_12 => cases hn
  all_goals
    cases hn
    cases h

theorem eq_nil_of_run_done (h : run nesting (done d) ls = some d') : ls = [] ∧ d = d' := by
  cases ls with
  | nil =>
    cases h
    exact ⟨rfl, rfl⟩
  | cons l ls => cases h

-- Inside of a container, the text goes on with what the container holds, up to the bracket that
-- closes the outermost one.
theorem exists_close_of_run (hs : ∀ c ∈ stops, closes c = true)
    (ht : Lexeme.readAll? text = some ls) (h : run nesting s ls = some d) (hp : 0 < s.height) :
    ∃ inner c spaces, text = inner ++ c :: spaces ∧ closes c = true ∧
      (∀ c ∈ spaces, Lexeme.isSpace c = true) ∧
      Scan.run? stops ⟨s.height - 1, .outside⟩ inner = some ⟨0, .outside⟩ := by
  fun_induction Lexeme.readAll? text generalizing s ls with
  | case1 =>
    cases ht
    cases s <;> cases h
    cases hp
  | case2 => cases ht
  | case3 text c r hd l rest hr _ ih =>
    obtain ⟨ls, hls, e⟩ := Option.map_eq_some_iff.mp ht
    cases e
    obtain ⟨s', hn, h⟩ := Option.bind_eq_some_iff.mp h
    have hm := moves_next hn
    obtain ⟨n, hheight⟩ := Nat.exists_eq_succ_of_ne_zero (Nat.ne_of_gt hp)
    obtain ⟨before, e, hb⟩ := passes_dropWhile (p := Lexeme.isSpace) (by decide) text
    rw [hd] at e
    rw [hheight] at hm ⊢
    rw [Nat.succ_sub_one]
    have hbefore := hb.run? hs n
    by_cases hz : s'.height = 0
    case pos =>
      rw [hz] at hm
      obtain ⟨rfl, c', hc, e'⟩ := Lexeme.closes_of_read? hr hm
      obtain ⟨d', rfl⟩ := exists_done_of_next hn hz
      obtain ⟨rfl, _⟩ := eq_nil_of_run_done h
      exact ⟨before, c', rest, by rw [e, e'], hc, Lexeme.isSpace_of_readAll?_nil hls, hbefore⟩
    case neg =>
      obtain ⟨n', hheight'⟩ := Nat.exists_eq_succ_of_ne_zero hz
      obtain ⟨inner, c', spaces, e', hc, hspaces, hinner⟩ := ih hls h (Nat.pos_of_ne_zero hz)
      rw [hheight'] at hm hinner
      rw [Nat.succ_sub_one] at hinner
      obtain ⟨taken, e'', htaken⟩ := Lexeme.run?_of_read? hs hr hm
      refine ⟨before ++ (taken ++ inner), c', spaces, by simp [e, e', e''], hc, hspaces, ?_⟩
      rw [Scan.run?_append, hbefore, Option.bind_some, Scan.run?_append, htaken, Option.bind_some,
        hinner]

end Draft.State

namespace Draft

def Open.kind : Open → Kind
  | .array _    => .array
  | .object _ _ => .object

def containerKind? : Draft → Option Kind
  | arr _ => some .array
  | obj _ => some .object
  | _     => none

namespace State

variable {nesting : Nat} {s s' : State} {stack : List Open} {l : Lexeme} {ls : List Lexeme}
  {d : Draft} {k : Kind}

-- The kind of the outermost container, which is open or complete.
def outermost? : State → Option Kind
  | value stack => stack.getLast?.map Open.kind
  | firstItem stack | afterItem _ stack => some ((stack.getLast?.map Open.kind).getD .array)
  | firstKey stack | key _ stack | colon _ _ stack | afterMember _ stack =>
    some ((stack.getLast?.map Open.kind).getD .object)
  | done d => d.containerKind?

theorem getLast?_cons_kind (o : Open) (stack : List Open) :
    (o :: stack).getLast?.map Open.kind = some ((stack.getLast?.map Open.kind).getD o.kind) := by
  cases h : stack.getLast? <;> simp [List.getLast?_cons, h]

theorem outermost?_place (d : Draft) (stack : List Open) :
    (place d stack).outermost? = (stack.getLast?.map Open.kind).or d.containerKind? := by
  match stack with
  | [] => rfl
  | .array _ :: stack | .object _ _ :: stack =>
    rw [getLast?_cons_kind]
    rfl

-- What is open stays open until it is complete.
theorem outermost?_next (hk : s.outermost? = some k) (hn : next nesting s l = some s') :
    s'.outermost? = some k := by
  have hstart {stack : List Open} (hk : stack.getLast?.map Open.kind = some k)
      (hn : start nesting stack l = some s') : s'.outermost? = some k := by
    unfold start at hn
    split at hn
    case h_5 | h_6 =>
      split at hn <;> cases hn
      simp [outermost?, hk]
    case h_7 => cases hn
    all_goals
      cases hn
      rw [outermost?_place, hk, Option.some_or]
  unfold next at hn
  split at hn
  case h_1 => exact hstart hk hn
  case h_3 _ stack _ => exact hstart ((getLast?_cons_kind (.array []) stack).trans hk) hn
  case h_2 | h_4 | h_9 | h_11 =>
    cases hn
    rw [outermost?_place]
    exact Option.or_some.trans hk
  case h_7 | h_8 =>
    cases hn
    exact (getLast?_cons_kind _ _).trans hk
  case h_12 => cases hn
  all_goals
    cases hn
    exact hk

theorem containerKind?_of_run (hk : s.outermost? = some k) (h : run nesting s ls = some d) :
    d.containerKind? = some k := by
  induction ls generalizing s with
  | nil =>
    cases s <;> cases h
    exact hk
  | cons l ls ih =>
    obtain ⟨s', hn, h⟩ := Option.bind_eq_some_iff.mp h
    exact ih (outermost?_next hk hn) h

-- A document is an array or an object by its first bracket, and everything else is one lexeme.
theorem run_value_cons (h : run nesting (value []) (l :: ls) = some d) :
    (l = .openArray ∧ d.containerKind? = some .array ∨
      l = .openObject ∧ d.containerKind? = some .object) ∨
    ls = [] ∧ start nesting [] l = some (done d) := by
  obtain ⟨s', hstart, h⟩ := Option.bind_eq_some_iff.mp h
  have hn : start nesting [] l = some s' := hstart
  unfold start at hn
  split at hn
  case h_5 =>
    split at hn <;> cases hn
    exact .inl (.inl ⟨rfl, containerKind?_of_run rfl h⟩)
  case h_6 =>
    split at hn <;> cases hn
    exact .inl (.inr ⟨rfl, containerKind?_of_run rfl h⟩)
  case h_7 => cases hn
  all_goals
    cases hn
    obtain ⟨rfl, rfl⟩ := eq_nil_of_run_done h
    exact .inr ⟨rfl, hstart⟩

end State

variable {text : List Char} {d : Draft}

-- The text of an object is cut off at its last brace even if it holds numbers or strings without a
-- value.
theorem exists_inner_of_read? (h : read? Json.maxNesting text = some d)
    (hf : text.head? = some '{') (hl : text.getLast? = some '}') :
    ∃ inner members, text = '{' :: (inner ++ ['}']) ∧ d = .obj members ∧
      ∀ after, cut? ['}'] 0 none (inner ++ '}' :: after) = some (inner, '}' :: after) := by
  obtain ⟨body, rfl⟩ := List.head?_eq_some_iff.mp hf
  obtain ⟨ls, hls, hd⟩ := Option.bind_eq_some_iff.mp h
  rw [Lexeme.readAll?_of_read? (l := .openObject) rfl] at hls
  obtain ⟨ls, hbody, rfl⟩ := Option.map_eq_some_iff.mp hls
  obtain ⟨members, rfl⟩ : ∃ members, d = .obj members := by
    rcases State.run_value_cons hd with (⟨e, _⟩ | ⟨_, hk⟩) | ⟨rfl, hs⟩
    · cases e
    · cases d <;> cases hk
      exact ⟨_, rfl⟩
    · rw [State.start] at hs
      split at hs <;> cases hs
  obtain ⟨s, hs, hd⟩ := Option.bind_eq_some_iff.mp hd
  cases hs
  have hstop : ∀ c ∈ ['}'], closes c = true := List.forall_mem_singleton.mpr rfl
  obtain ⟨inner, c, spaces, rfl, _, hspaces, hrun⟩ :=
    State.exists_close_of_run hstop hbody hd Nat.one_pos
  obtain ⟨rfl, rfl⟩ : spaces = [] ∧ c = '}' := by
    rw [← List.cons_append, List.getLast?_append, List.getLast?_cons, Option.some_or] at hl
    cases hlast : spaces.getLast? with
    | none      => exact ⟨List.getLast?_eq_none_iff.mp hlast, by simpa [hlast] using hl⟩
    | some last =>
      have e : last = '}' := by simpa [hlast] using hl
      have hspace := hspaces last (List.mem_of_getLast? hlast)
      rw [e] at hspace
      cases hspace
  exact ⟨inner, members, rfl, rfl, fun after => cut?_of_run? hrun List.mem_cons_self rfl rfl⟩

end Draft

namespace Json

variable {text : List Char} {v : Json}

-- The text of a document between parentheses is cut off at the closing one behind it.
theorem cut?_of_read? (h : read? text = some v) (after : List Char) :
    cut? [')'] 0 none (text ++ ')' :: after) = some (text, ')' :: after) := by
  have hrun : Scan.run? [')'] ⟨0, .outside⟩ text = some ⟨0, .outside⟩ :=
    (neutral_of_read? h).run? (List.forall_mem_singleton.mpr rfl) 0
  exact cut?_of_run? hrun List.mem_cons_self rfl rfl

-- The text of an object without spaces around it is cut off at its last brace.
theorem exists_inner_of_read? (h : read? text = some v) (hf : text.head? = some '{')
    (hl : text.getLast? = some '}') :
    ∃ inner ms, text = '{' :: (inner ++ ['}']) ∧ v = .obj ms ∧
      ∀ after, cut? ['}'] 0 none (inner ++ '}' :: after) = some (inner, '}' :: after) := by
  obtain ⟨d, hd, hv⟩ := Option.bind_eq_some_iff.mp h
  obtain ⟨inner, members, e, rfl, hc⟩ := Draft.exists_inner_of_read? hd hf hl
  obtain ⟨ms, _, rfl⟩ := Option.map_eq_some_iff.mp hv
  exact ⟨inner, _, e, rfl, hc⟩

end Json

end JsonQuery
