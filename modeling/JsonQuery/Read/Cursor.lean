import JsonQuery.Options
import JsonQuery.Read.View
import JsonQuery.Total

namespace JsonQuery

-- What a segment makes of a view: a result at once, or the views that the rest of the path goes on
-- with.
inductive Outcome where
  | found (m : Match)
  | onward (views : List View)

-- The meaning of a segment: given whether it is the last one and how deep the computation is, it
-- makes an outcome of a view or fails.
abbrev Stage := (last : Bool) → (depth : Nat) → View → Except Error Outcome

-- A branch of a read that has not been taken yet.
structure Frame where
  view   : View
  depth  : Nat
  stages : List Stage

namespace Frame

-- Takes a branch: it is at its end, or it splits up. Both happen only within the depth limit.
def advance (limit : Nat) (f : Frame) : Except Error (Match ⊕ List Frame) :=
  if limit < f.depth then .error (.tooDeep limit)
  else
    match f.stages with
    | [] => .ok (.inl ⟨f.view.location, f.view.value⟩)
    | s :: rest =>
      match s rest.isEmpty f.depth f.view with
      | .error e => .error e
      | .ok (.found m) => .ok (.inl m)
      | .ok (.onward views) => .ok (.inr (views.map fun v => ⟨v, deeper f.depth, rest⟩))

-- How many branches follow from one with these stages, itself included.
def workOf (limit : Nat) : List Stage → Nat → View → Nat
  | [], _, _ => 1
  | s :: rest, depth, view =>
    if limit < depth then 1
    else
      match s rest.isEmpty depth view with
      | .ok (.onward views) => total (views.map (workOf limit rest (deeper depth))) + 1
      | _ => 1

def work (limit : Nat) (f : Frame) : Nat := workOf limit f.stages f.depth f.view

theorem work_pos (limit : Nat) (f : Frame) : 0 < f.work limit := by
  unfold work workOf
  split
  case _ => omega
  case _ =>
    split
    case isTrue => omega
    case isFalse => split <;> omega

-- A branch is worth one more than the branches that it splits up into.
theorem work_eq_of_advance {limit : Nat} {f : Frame} {frames : List Frame}
    (h : f.advance limit = .ok (.inr frames)) :
    f.work limit = total (frames.map (work limit)) + 1 := by
  unfold advance at h
  split at h
  case isTrue => cases h
  case isFalse hd =>
    split at h
    case _ => cases h
    case _ s rest hs =>
      split at h
      case _ => cases h
      case _ => cases h
      case _ views hv =>
        cases h
        simp only [work, hs, workOf, hd, if_false, hv, List.map_map]
        rfl

end Frame

-- A read that is under way: the branches still to be taken, the next one first. Without branches it
-- is at its end.
structure Cursor where
  limit     : Nat
  onlyFirst : Bool
  stack     : List Frame

namespace Cursor

def start (limit : Nat) (onlyFirst : Bool) (stages : List Stage) (depth : Nat) (v : Json) :
    Cursor :=
  ⟨limit, onlyFirst, [⟨.root v, depth, stages⟩]⟩

def work (c : Cursor) : Nat := total (c.stack.map (Frame.work c.limit))

def finish (c : Cursor) : Cursor := { c with stack := [] }

-- The next result, and the read after it. Branches are taken until one of them is at its end. An
-- error ends the whole read.
def next? (c : Cursor) : Option (Except Error Match × Cursor) :=
  match hs : c.stack with
  | [] => none
  | f :: rest =>
    match hf : f.advance c.limit with
    | .error e => some (.error e, c.finish)
    | .ok (.inl m) => some (.ok m, if c.onlyFirst then c.finish else { c with stack := rest })
    | .ok (.inr frames) =>
      have : work { c with stack := frames ++ rest } < c.work := by
        simp only [work, hs, List.map_cons, total_cons, List.map_append, total_append,
          Frame.work_eq_of_advance hf]
        omega
      next? { c with stack := frames ++ rest }
termination_by c.work

theorem next?_of_stack_eq_nil {c : Cursor} (h : c.stack = []) : c.next? = none := by
  unfold next?
  split
  case _ => rfl
  case _ hs => simp [h] at hs

theorem work_finish (c : Cursor) : c.finish.work = 0 :=
  rfl

theorem work_pos_of_stack {c : Cursor} {f : Frame} {rest : List Frame} (h : c.stack = f :: rest) :
    0 < c.work := by
  have := f.work_pos c.limit
  simp only [work, h, List.map_cons, total_cons]
  omega

theorem work_lt_of_next? {c c' : Cursor} {r : Except Error Match} (h : c.next? = some (r, c')) :
    c'.work < c.work := by
  fun_induction next? c with
  | case1 => cases h
  | case2 c f rest hs e hf =>
    cases h
    rw [work_finish]
    exact work_pos_of_stack hs
  | case3 c f rest hs m hf =>
    have := f.work_pos c.limit
    cases h
    split
    case isTrue =>
      rw [work_finish]
      exact work_pos_of_stack hs
    case isFalse =>
      simp only [work, hs, List.map_cons, total_cons]
      omega
  | case4 c f rest hs frames hf hlt ih => exact Nat.lt_trans (ih h) hlt

-- The value of the first result, if there is one.
def first? (c : Cursor) : Except Error (Option Json) :=
  match c.next? with
  | none => .ok none
  | some (.error e, _) => .error e
  | some (.ok m, _) => .ok (some m.value)

-- All results of a read that does not fail.
def all (c : Cursor) : Except Error (List Match) :=
  match h : c.next? with
  | none => .ok []
  | some (.error e, _) => .error e
  | some (.ok m, c') =>
    have := work_lt_of_next? h
    c'.all.map (m :: ·)
termination_by c.work

end Cursor

end JsonQuery
