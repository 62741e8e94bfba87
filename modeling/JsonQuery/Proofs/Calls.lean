import JsonQuery.Proofs.Run
import JsonQuery.Read.Cursor

namespace JsonQuery

namespace Frame

-- What the branches that follow from one with these stages lead to. Branches do not depend on one
-- another.
def runOf (limit : Nat) : List Stage → Nat → View → Run Match
  | [], depth, view =>
    if limit < depth then .fail (.tooDeep limit) else .one ⟨view.location, view.value⟩
  | s :: rest, depth, view =>
    if limit < depth then .fail (.tooDeep limit)
    else
      match s rest.isEmpty depth view with
      | .error e => .fail e
      | .ok (.found m) => .one m
      | .ok (.onward views) => .inTurn (runOf limit rest (deeper depth)) views

def run (limit : Nat) (f : Frame) : Run Match := runOf limit f.stages f.depth f.view

-- One step of a branch.
theorem run_eq (limit : Nat) (f : Frame) : f.run limit =
    match f.advance limit with
    | .error e          => .fail e
    | .ok (.inl m)      => .one m
    | .ok (.inr frames) => .inTurn (run limit) frames := by
  have ⟨view, depth, stages⟩ := f
  cases stages with
  | nil =>
    simp only [run, runOf, advance]
    split <;> rfl
  | cons s rest =>
    simp only [run, runOf, advance]
    split
    case isTrue => rfl
    case isFalse =>
      cases s rest.isEmpty depth view with
      | error e => rfl
      | ok outcome =>
        cases outcome with
        | found m => rfl
        | onward views =>
          dsimp only
          rw [Run.inTurn_map]
          rfl

end Frame

namespace Cursor

variable {c : Cursor} {f : Frame} {rest : List Frame}

theorem all_eq : c.all =
    match c.next? with
    | none              => .ok []
    | some (.error e, _) => .error e
    | some (.ok m, c')   => c'.all.map (m :: ·) := by
  rw [all]
  split <;> simp [*]

-- One branch after another is taken.
theorem next?_of_stack (hs : c.stack = f :: rest) : c.next? =
    match f.advance c.limit with
    | .error e          => some (.error e, c.finish)
    | .ok (.inl m)      => some (.ok m, if c.onlyFirst then c.finish else { c with stack := rest })
    | .ok (.inr frames) => next? { c with stack := frames ++ rest } := by
  rw [next?]
  split
  case _ h => simp [hs] at h
  case _ f' rest' h =>
    obtain ⟨e, e'⟩ := List.cons.inj (hs.symm.trans h)
    subst e e'
    split <;> simp [*]

theorem all_of_stack_eq_nil (h : c.stack = []) : c.all = .ok [] := by
  rw [all_eq, next?_of_stack_eq_nil h]

-- What the branches of a read lead to.
def run (c : Cursor) : Run Match := .inTurn (Frame.run c.limit) c.stack

-- The read after a call. One that is at its end stays there.
def after (c : Cursor) : Cursor :=
  match c.next? with
  | none         => c.finish
  | some (_, c') => c'

-- The answers to repeated calls, the first one under zero.
def answer (c : Cursor) : Nat → Option (Except Error Match)
  | 0     => c.next?.map (·.1)
  | n + 1 => c.after.answer n

-- All that a sequence of calls is told. A read that stops after its first result tells that alone.
def results (c : Cursor) : List (Except Error Match) :=
  if c.onlyFirst then c.run.results.take 1 else c.run.results

-- One call gives the first of the results, and the read after it has the others.
inductive Call (c : Cursor) : Prop
  | finished (next : c.next? = none) (run : c.run = .nothing)
  | failed (e : Error) (next : c.next? = some (.error e, c.finish)) (run : c.run = .fail e)
  | found (m : Match) (rest : List Frame)
      (next : c.next? = some (.ok m, if c.onlyFirst then c.finish else { c with stack := rest }))
      (run : c.run = (Run.one m).andThen (Cursor.run { c with stack := rest }))

theorem call (c : Cursor) : c.Call := by
  fun_induction next? c with
  | case1 c hs => exact .finished (next?_of_stack_eq_nil hs) (by simp [run, hs, Run.inTurn])
  | case2 c f rest hs e hf =>
    have hr : c.run = .fail e := by
      simp [run, hs, Run.inTurn, Frame.run_eq, hf, Run.fail, Run.andThen]
    exact .failed e (by simp [next?_of_stack hs, hf]) hr
  | case3 c f rest hs m hf =>
    have hr : c.run = (Run.one m).andThen (run { c with stack := rest }) := by
      simp [run, hs, Run.inTurn, Frame.run_eq, hf]
    exact .found m rest (by simp [next?_of_stack hs, hf]) hr
  | case4 c f rest hs frames hf hlt ih =>
    have hn : c.next? = next? { c with stack := frames ++ rest } := by simp [next?_of_stack hs, hf]
    have hr : c.run = run { c with stack := frames ++ rest } := by
      simp [run, hs, Run.inTurn, Run.inTurn_append, Frame.run_eq _ f, hf]
    cases ih with
    | finished next run => exact .finished (hn.trans next) (hr.trans run)
    | failed e next run => exact .failed e (hn.trans next) (hr.trans run)
    | found m rest next run => exact .found m rest (hn.trans next) (hr.trans run)

theorem run_finish (c : Cursor) : c.finish.run = .nothing :=
  rfl

theorem results_finish (c : Cursor) : c.finish.results = [] := by
  simp [results, run_finish, Run.nothing, Run.results]

-- A call tells the first of the results, and the read after it has the others.
theorem results_eq (c : Cursor) : c.results =
    match c.next? with
    | none         => []
    | some (r, c') => r :: c'.results := by
  cases c.call with
  | finished next run => simp [next, results, run, Run.results, Run.nothing]
  | failed e next run =>
    simp only [next, results_finish]
    simp [results, run, Run.results, Run.fail]
  | found m rest next run =>
    rw [next, results, run, Run.results_one_andThen]
    cases ho : c.onlyFirst
    case true  => simp [results_finish]
    case false => simp [results]

-- Repeated calls are told one result after another, and nothing once there are no more.
theorem answer_eq (c : Cursor) (n : Nat) : c.answer n = c.results[n]? := by
  induction n generalizing c with
  | zero =>
    rw [answer, results_eq]
    cases c.next? <;> rfl
  | succ n ih =>
    rw [answer, ih, results_eq c, after]
    cases c.next? with
    | none   => simp [results_finish]
    | some r => rfl

-- A read that does not stop after its first result collects all of them, unless one is an error.
theorem all_eq_run (c : Cursor) (h : c.onlyFirst = false) : c.all = c.run.all := by
  cases c.call with
  | finished next run => rw [all_eq, next, run]; rfl
  | failed e next run => rw [all_eq, next, run]; rfl
  | found m rest next run =>
    rw [if_neg (by simp [h])] at next
    have := work_lt_of_next? next
    have ih := all_eq_run { c with stack := rest } h
    rw [all_eq, next, run]
    dsimp only
    rw [ih, Run.all_one_andThen]
termination_by c.work

-- What a sequence of calls is told, as a run.
def told (c : Cursor) : Run Match := if c.onlyFirst then c.run.once else c.run

theorem results_eq_told (c : Cursor) : c.results = c.told.results := by
  cases h : c.onlyFirst <;> simp [results, told, h, Run.results_once]

theorem answer_eq_told (c : Cursor) (n : Nat) : c.answer n = c.told.results[n]? := by
  rw [answer_eq, results_eq_told]

-- Every read collects what its calls are told.
theorem all_eq_told (c : Cursor) : c.all = c.told.all := by
  cases h : c.onlyFirst
  case false => simp [told, h, all_eq_run c h]
  case true =>
    have ht : c.told = c.run.once := by simp [told, h]
    cases c.call with
    | finished next run =>
      rw [all_eq, next, ht, run]
      rfl
    | failed e next run =>
      rw [all_eq, next, ht, run]
      rfl
    | found m rest next run =>
      rw [if_pos h] at next
      rw [all_eq, next, ht, run, Run.once_of_found rfl]
      dsimp only
      rw [all_of_stack_eq_nil rfl]
      rfl

theorem first?_eq_run (c : Cursor) : c.first? = c.run.first?.map (·.map (·.value)) := by
  cases c.call with
  | finished next run => rw [first?, next, run]; rfl
  | failed e next run => rw [first?, next, run]; rfl
  | found m rest next run => rw [first?, next, run]; rfl

variable (limit depth : Nat) (stages : List Stage) (v : Json)

theorem run_start (onlyFirst : Bool) :
    (start limit onlyFirst stages depth v).run = Frame.runOf limit stages depth (.root v) :=
  Run.inTurn_singleton _

theorem all_start :
    (start limit false stages depth v).all = (Frame.runOf limit stages depth (.root v)).all := by
  rw [all_eq_run _ rfl, run_start]

theorem first?_start (onlyFirst : Bool) : (start limit onlyFirst stages depth v).first? =
    (Frame.runOf limit stages depth (.root v)).first?.map (·.map (·.value)) := by
  rw [first?_eq_run, run_start]

end Cursor

end JsonQuery
