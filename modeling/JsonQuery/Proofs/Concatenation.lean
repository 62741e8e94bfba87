import Mathlib.Logic.Function.Iterate
import JsonQuery.Proofs.CutShort
import JsonQuery.Query

namespace JsonQuery

namespace Run

variable {α β : Type} {r s : Run α}

-- A run that may have failed before the other one, and is the same if it has not.
structure Shorter (r s : Run α) : Prop where
  found : r.found <+: s.found
  same  : r.error? = none → s = r

theorem CutShort.shorter {cut : Error → Prop} (h : r.CutShort cut s) : r.Shorter s := by
  refine ⟨h.found, fun hn => ?_⟩
  cases h with
  | same           => rfl
  | stopped he _ _ => simp [he] at hn

theorem Shorter.map (h : r.Shorter s) (f : α → β) : (r.map f).Shorter (s.map f) :=
  ⟨h.found.map f, fun he => by rw [h.same he]⟩

theorem Shorter.all (h : r.Shorter s) {xs : List α} (hr : r.all = .ok xs) : s.all = .ok xs := by
  have he : r.error? = none := by
    cases he : r.error? with
    | none   => rfl
    | some e => simp [Run.all, he] at hr
  rw [h.same he, hr]

end Run

-- The values of an evaluation alone. In a read that is not strict they do not depend on where the
-- evaluation starts.

def Match.values : Match ⊕ List Spot → Json ⊕ List Json :=
  Sum.map (·.value) (List.map (·.value))

def Segment.values (o : Options) (s : Segment) (last : Bool) (depth : Nat) (x : Json) :
    Except Error (Json ⊕ List Json) :=
  (s.visit o last depth (.root x)).map Match.values

def Path.values (o : Options) (p : Path) (depth : Nat) (x : Json) : Run Json :=
  (Path.evaluate o p depth (.root x)).map (·.value)

namespace Segment

variable {o : Options} {s : Segment} {last : Bool} {depth : Nat} {u : Spot} {m : Match}

theorem value_children (u : Spot) (ts : List Step) :
    (u.children ts).map (·.value) = ts.filterMap u.value.child? := by
  simp [Spot.children, Spot.child?, List.map_filterMap, Function.comp_def]

theorem stuck_of_not_strict (ho : o.strict = false) (q : Bool) (e : Error) :
    o.stuck q e = .ok (.inr []) := by
  simp [Options.stuck, ho]

theorem values_eq (ho : o.strict = false) (u : Spot) :
    (s.visit o last depth u).map Match.values = s.values o last depth u.value := by
  cases s <;> simp only [values, visit, Spot.root, stuck_of_not_strict ho]
  case key name q =>
    cases hv : u.value <;> simp only
    case obj ms =>
      cases Members.contains ms name <;> simp [Except.map, Match.values, value_children, hv]
  case index i q =>
    cases hv : u.value <;> simp only
    case arr items =>
      cases resolveIndex i items.length <;> simp only
      case some n => simp [Except.map, Match.values, value_children, hv]
      case none => cases q && last <;> rfl
    all_goals cases q && last <;> rfl
  case children q =>
    cases hv : u.value <;> simp [Except.map, Match.values, value_children, hv]
  case elements q =>
    cases hv : u.value <;> simp [Except.map, Match.values, value_children, hv]
  case slice sl =>
    cases hv : u.value <;> simp only
    case arr items =>
      simp only [Spot.part]
      cases sl.cut items <;> simp [Except.map, Match.values]
  case selector p text =>
    cases hv : u.value <;> simp [Except.map, Match.values, value_children, hv]
  case call f text => cases f.evaluate o depth u.value <;> rfl
  case literal x => rfl
  case construct fields => cases Path.evaluateFields o fields (deeper depth) u.value <;> rfl

-- Only an optional index depends on being the last segment.
theorem visit_last (h : ∀ i, s ≠ .index i true) (last' : Bool) :
    s.visit o last depth u = s.visit o last' depth u := by
  cases s
  case index i q =>
    have hq : q = false := by
      cases q
      case true  => exact absurd rfl (h i)
      case false => rfl
    simp [visit, hq]
  all_goals rfl

-- Where it does, it has a result as the last segment and leads nowhere otherwise.
theorem visit_last_or (last : Bool) : s.visit o last depth u = s.visit o false depth u ∨
    ∃ m, s.visit o last depth u = .ok (.inl m) ∧ s.visit o false depth u = .ok (.inr []) := by
  by_cases hs : ∃ i, s = .index i true
  case neg => exact .inl (visit_last (fun i e => hs ⟨i, e⟩) false)
  case pos =>
    have ⟨i, e⟩ := hs
    subst e
    cases last
    case false => exact .inl rfl
    case true =>
      simp only [visit, Bool.and_true, Bool.and_false, Options.stuck, Bool.not_true, if_true,
        Bool.false_eq_true, if_false]
      cases u.value <;> simp only
      case arr items =>
        cases resolveIndex i items.length
        case some n => exact .inl rfl
        case none   => exact .inr ⟨_, rfl, rfl⟩
      all_goals exact .inr ⟨_, rfl, trivial⟩

theorem visit_ne_inl (h : last = false ∨ ∀ i, s ≠ .index i true) :
    s.visit o last depth u ≠ .ok (.inl m) := by
  intro hv
  cases leads hv with
  | miss i segment terminal =>
    cases h
    case inl h => exact absurd terminal (by simp [h])
    case inr h => exact h i segment

end Segment

namespace Path

variable {o : Options} {p q : Path} {s : Segment} {depth : Nat} {x : Json}

theorem values_nil : values o [] depth x =
    if o.maxDepth < depth then .fail (.tooDeep o.maxDepth) else .one x := by
  simp only [values, evaluate]
  split <;> rfl

theorem values_of_lt (h : o.maxDepth < depth) (p : Path) :
    values o p depth x = .fail (.tooDeep o.maxDepth) := by
  cases p <;> simp [values, evaluate, h] <;> rfl

theorem map_evaluate_cons (ho : o.strict = false)
    (h : ∀ w, (evaluate o p (deeper depth) w).map (·.value) = values o p (deeper depth) w.value)
    (u : Spot) :
    (evaluate o (s :: p) depth u).map (·.value) =
      if o.maxDepth < depth then .fail (.tooDeep o.maxDepth)
      else
        match s.values o p.isEmpty depth u.value with
        | .error e      => .fail e
        | .ok (.inl y)  => .one y
        | .ok (.inr ys) => .inTurn (values o p (deeper depth)) ys := by
  rw [evaluate, ← Segment.values_eq ho u]
  split
  case isTrue  => rfl
  case isFalse =>
    cases s.visit o p.isEmpty depth u with
    | error e => rfl
    | ok y =>
      cases y with
      | inl m  => rfl
      | inr ws =>
        simp only [Except.map, Match.values, Sum.map_inr, Run.inTurn_map, Run.map_inTurn, h]
        rfl

-- Every value is evaluated like a document of its own.
theorem map_evaluate (ho : o.strict = false) (p : Path) (depth : Nat) (u : Spot) :
    (evaluate o p depth u).map (·.value) = values o p depth u.value := by
  induction p generalizing depth u with
  | nil =>
    simp only [values, evaluate]
    split <;> rfl
  | cons s rest ih =>
    have h := map_evaluate_cons (s := s) ho (ih (deeper depth))
    rw [h u, values, h (.root u.value)]
    rfl

theorem values_cons (ho : o.strict = false) (hd : ¬ o.maxDepth < depth) :
    values o (s :: p) depth x =
      match s.values o p.isEmpty depth x with
      | .error e      => .fail e
      | .ok (.inl y)  => .one y
      | .ok (.inr ys) => .inTurn (values o p (deeper depth)) ys := by
  rw [values, map_evaluate_cons ho (map_evaluate ho p (deeper depth)), if_neg hd]
  rfl

theorem values_last (h : ∀ i, s ≠ .index i true) (last last' : Bool) :
    s.values o last depth x = s.values o last' depth x := by
  rw [Segment.values, Segment.visit_last h last', Segment.values]

theorem values_ne_inl {last : Bool} {y : Json} (h : last = false ∨ ∀ i, s ≠ .index i true) :
    s.values o last depth x ≠ .ok (.inl y) := by
  intro hv
  have ⟨z, hz, e⟩ := map_eq_ok_iff.mp hv
  cases z with
  | inl m  => exact Segment.visit_ne_inl h hz
  | inr ws => cases e

-- Two paths one after the other: the second one is evaluated for every value of the first one.
theorem values_append (ho : o.strict = false) (hp : ∀ i, p.getLast? ≠ some (.index i true))
    (q : Path) :
    values o (p ++ q) depth x =
      (values o p depth x).bind (values o q (deeper^[p.length] depth)) := by
  induction p generalizing depth x with
  | nil =>
    by_cases hd : o.maxDepth < depth
    case pos => rw [values_of_lt hd, values_of_lt hd, Run.fail_bind]
    case neg => rw [values_nil, if_neg hd, Run.one_bind]; rfl
  | cons s rest ih =>
    by_cases hd : o.maxDepth < depth
    case pos => rw [values_of_lt hd, values_of_lt hd, Run.fail_bind]
    case neg =>
      have hl : rest.isEmpty = false ∨ ∀ i, s ≠ .index i true := by
        cases rest with
        | nil => exact .inr fun i e => hp i (by simp [e])
        | cons _ _ => exact .inl rfl
      have hs : s.values o (rest ++ q).isEmpty depth x = s.values o rest.isEmpty depth x := by
        cases rest with
        | nil => exact values_last (fun i e => hp i (by simp [e])) _ _
        | cons _ _ => rfl
      have hp : ∀ i, rest.getLast? ≠ some (.index i true) :=
        fun i h => hp i (by rw [List.getLast?_cons, h]; rfl)
      rw [List.cons_append, values_cons ho hd, values_cons ho hd, hs, List.length_cons,
        Function.iterate_succ_apply]
      cases hv : s.values o rest.isEmpty depth x with
      | error e => rfl
      | ok y =>
        cases y with
        | inl m  => exact absurd hv (values_ne_inl hl)
        | inr ys =>
          dsimp only
          rw [Run.bind_inTurn]
          exact Run.inTurn_congr fun y _ => ih hp

theorem values_shallower {depth' : Nat} (hd : depth' ≤ depth) (p : Path) (x : Json) :
    (values o p depth x).Shorter (values o p depth' x) :=
  (evaluate_cutShort (.of_le hd) p (.root x)).shorter.map _

end Path

namespace Query

variable {o : Options} {p q : Path} {v : Json} {xs : List Json}

theorem get_eq_values (hf : o.onlyFirst = false) (p : Path) (v : Json) :
    (Query.mk p o).get v = (p.values o 0 v).all := by
  have hc : ((Query.mk p o).cursor v).all = (Path.evaluate o p 0 (.root v)).all := by
    rw [← Path.run_cursor]
    exact Cursor.all_eq_run _ hf
  rw [get, hc, Path.values, Run.all_map]

-- A path that is put together from two reads what the second one reads from every result of the
-- first one. Where it succeeds, so do they.
theorem get_append (hs : o.strict = false) (hf : o.onlyFirst = false)
    (hp : ∀ i, p.getLast? ≠ some (.index i true)) (h : (Query.mk (p ++ q) o).get v = .ok xs) :
    ∃ ms xss, (Query.mk p o).get v = .ok ms ∧ ms.mapM (Query.mk q o).get = .ok xss ∧
      xs = xss.flatten := by
  rw [get_eq_values hf, Path.values_append hs hp] at h
  have ⟨hms, hxs, e⟩ := Run.all_bind_eq_ok h
  have he := e.trans List.flatMap_def
  refine ⟨_, _, (get_eq_values hf p v).trans hms, mapM_eq_ok fun m hm => ?_, he⟩
  rw [get_eq_values hf]
  exact (Path.values_shallower (Nat.zero_le _) q m).all (hxs m hm)

-- An array that a slice cuts is read on like any other.
theorem get_append_slice :
    let v : Json := .obj [("a", .arr [.int 0, .arr [.int 1, .int 2], .int 3, .arr [.int 4]])]
    let p : Path := [.key "a" false, .slice ⟨some 1, none, none⟩]
    let q : Path := [.elements false, .index (-1) true]
    ∃ ms xss, (Query.mk p .default).get v = .ok ms ∧
      ms.mapM (Query.mk q .default).get = .ok xss ∧ [.int 2, .null, .int 4] = xss.flatten := by
  intro v p q
  have h : (Query.mk (p ++ q) .default).get v = .ok [.int 2, .null, .int 4] :=
    (get_eq_values rfl _ v).trans rfl
  exact get_append rfl rfl (fun i => by simp [p]) h

end Query

end JsonQuery
