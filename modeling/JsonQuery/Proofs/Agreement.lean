import Mathlib.Data.List.Basic
import JsonQuery.Proofs.Evaluation
import JsonQuery.Proofs.Reads

namespace JsonQuery

namespace View

-- A view that shows only some of the elements of an array, all of which are there.
def Bounded (u : View) : Prop :=
  ∀ is, u.origin = some is → ∃ items, u.node = .arr items ∧ ∀ i ∈ is, i < items.length

-- What a view looks like without the array that it was cut from.
def spot (u : View) : Spot := ⟨u.location, u.value, u.origin⟩

end View

-- The same outcome, seen in this way.
def Outcome.spots : Outcome → Match ⊕ List Spot
  | found m      => .inl m
  | onward views => .inr (views.map View.spot)

namespace View

variable {u w : View} {s : Segment} {t : Step} {sl : Slice} {items shown : List Json} {c : Json}

theorem bounded_of_origin_eq_none (h : u.origin = none) : u.Bounded := by
  simp [Bounded, h]

theorem spot_root (v : Json) : (root v).spot = .root v :=
  rfl

theorem index_spot (u : View) (i : Nat) : u.spot.index i = u.sourceIndex i := by
  cases h : u.origin <;> simp [spot, Spot.index, sourceIndex, h]

theorem step_spot (u : View) (t : Step) : u.spot.step t = u.source t := by
  cases t
  case key k   => rfl
  case index i => exact congrArg Step.index (index_spot u i)

-- Only an array is seen as an array.
theorem value_eq_arr_iff (h : u.Bounded) :
    (∃ shown, u.value = .arr shown) ↔ ∃ items, u.node = .arr items := by
  cases ho : u.origin with
  | none => rw [value_of_origin_eq_none ho]
  | some is =>
    have ⟨items, hn, _⟩ := h is ho
    simp [value_of_origin ho hn, hn]

-- As many elements are seen as are counted, and every one stands at its place of the array.
theorem Bounded.length_value (h : u.Bounded) (hn : u.node = .arr items)
    (hv : u.value = .arr shown) :
    u.origin.elim items.length List.length = shown.length := by
  cases ho : u.origin with
  | none =>
    have e : shown = items := by simpa [value_of_origin_eq_none ho, hn] using hv.symm
    simp [e]
  | some is =>
    have ⟨items', hn', hlt⟩ := h is ho
    have e : items = items' := by simpa [hn] using hn'
    have e' : shown = is.filterMap (items[·]?) := by simpa [value_of_origin ho hn] using hv.symm
    rw [e', length_pick (e ▸ hlt)]
    rfl

theorem Bounded.getElem? (h : u.Bounded) (hn : u.node = .arr items) (hv : u.value = .arr shown)
    {i : Nat} (hi : i < shown.length) : shown[i]? = items[u.sourceIndex i]? := by
  have hlen := h.length_value hn hv
  cases ho : u.origin with
  | none =>
    have e : shown = items := by simpa [value_of_origin_eq_none ho, hn] using hv.symm
    simp [sourceIndex, ho, e]
  | some is =>
    obtain ⟨items', hn', hlt⟩ := h is ho
    have e : items = items' := by simpa [hn] using hn'
    have e' : shown = is.filterMap (items[·]?) := by simpa [value_of_origin ho hn] using hv.symm
    have hi : i < is.length := by simpa [ho, ← hlen] using hi
    rw [e', getElem?_pick (e ▸ hlt)]
    simp [sourceIndex, ho, hi]

-- Steps that are seen lead to the same children.
theorem Bounded.child?_source (h : u.Bounded) (ht : (u.value.child? t).isSome) :
    u.node.child? (u.source t) = u.value.child? t := by
  cases ho : u.origin with
  | none => rw [source_of_origin_eq_none ho, value_of_origin_eq_none ho]
  | some is =>
    have ⟨items, hn, hlt⟩ := h is ho
    have hv := value_of_origin ho hn
    cases t
    case key k => simp [hv, Json.child?] at ht
    case index i =>
      have hi : i < (is.filterMap (items[·]?)).length := by simpa [hv, Json.child?] using ht
      simp only [hv, hn, Json.child?, source]
      exact (h.getElem? hn hv hi).symm

theorem Bounded.children_spot (h : u.Bounded) {ts : List Step}
    (ht : ∀ t ∈ ts, (u.value.child? t).isSome) :
    u.spot.children ts = (ts.filterMap u.child?).map spot := by
  have hc : ∀ t ∈ ts, u.spot.child? t = (u.child? t).map spot := by
    intro t hm
    simp only [Spot.child?, View.child?, h.child?_source (ht t hm), step_spot, Option.map_map]
    rfl
  rw [Spot.children, List.map_filterMap]
  exact List.filterMap_congr hc

theorem Bounded.part_spot (h : u.Bounded) (hn : u.node = .arr items) (hv : u.value = .arr shown) :
    u.spot.part sl shown =
      match u.stray? (.slice sl) with
      | some e => .error e
      | none   => .ok (u.narrow sl items).spot := by
  have hlen := h.length_value hn hv
  rw [Spot.part, Slice.cut_eq]
  simp only [stray?, hv]
  cases hf : (sl.indices shown.length).find? (shown.length ≤ ·) with
  | some i => rfl
  | none =>
    have hi : ∀ i ∈ sl.indices shown.length, i < shown.length := by simpa using hf
    have ho : (u.narrow sl items).origin = some ((sl.indices shown.length).map u.sourceIndex) := by
      rw [← hlen]
      rfl
    have hpick : (sl.indices shown.length).filterMap (shown[·]?) =
        ((sl.indices shown.length).map u.sourceIndex).filterMap (items[·]?) := by
      rw [List.filterMap_map]
      exact List.filterMap_congr fun i hm => h.getElem? hn hv (hi i hm)
    have hval : (u.narrow sl items).value =
        .arr ((sl.indices shown.length).filterMap (shown[·]?)) := by
      rw [value_of_origin ho hn, hpick]
    have hindex : (sl.indices shown.length).map u.spot.index =
        (sl.indices shown.length).map u.sourceIndex :=
      List.map_congr_left fun i _ => index_spot u i
    simp only [Except.map, spot, Option.map_none, hval, ho]
    exact congrArg (fun is => Except.ok (Spot.mk _ _ (some is))) hindex

-- A slice that stays within its array picks elements that are there.
theorem Bounded.narrow (h : u.Bounded) (hn : u.node = .arr items)
    (hs : u.stray? (.slice sl) = none) : (u.narrow sl items).Bounded := by
  have ⟨shown, hv⟩ := (value_eq_arr_iff h).mpr ⟨items, hn⟩
  have hlen := h.length_value hn hv
  have hi := stray?_eq_none_iff.mp hs sl shown rfl hv
  intro is ho
  refine ⟨items, hn, fun j hj => ?_⟩
  have e : is = (sl.indices shown.length).map u.sourceIndex := by
    rw [← hlen]
    exact (Option.some.inj ho).symm
  have ⟨i, hm, e⟩ := List.mem_map.mp (e ▸ hj)
  have hs := h.getElem? hn hv (hi i hm)
  rw [List.getElem?_eq_getElem (hi i hm), e] at hs
  exact (List.getElem?_eq_some_iff.mp hs.symm).1

theorem Bounded.follow (h : u.Bounded) (hs : u.stray? s = none) (hw : w ∈ u.follow s) :
    w.Bounded := by
  have hc : ∀ w ∈ (s.steps u.value).filterMap u.child?, w.Bounded := by
    intro w hw
    have ⟨t, _, hc⟩ := List.mem_filterMap.mp hw
    have ⟨c, _, e⟩ := child?_eq_some_iff.mp hc
    exact e ▸ bounded_of_origin_eq_none rfl
  unfold View.follow at hw
  split at hw
  case _ sl items hn => exact List.mem_singleton.mp hw ▸ h.narrow hn hs
  case _ => exact hc w hw

end View

namespace Segment

variable {u : View} {s : Segment} {o : Options} {last : Bool} {depth : Nat} {e : Error}

-- Where a segment cannot be followed, it names no child.
theorem steps_of_obstacle? (h : u.obstacle? s = some e) : s.steps u.value = [] := by
  cases s <;> cases hv : u.value <;> simp only [View.obstacle?, hv, reduceCtorEq] at h <;>
    simp only [steps, Json.steps, Predicate.select]
  case key.obj name q ms => split at h <;> simp_all
  case index.arr i q items =>
    split at h <;> simp_all

-- A segment that is no slice and no miss goes on to the children that it names.
theorem locate_spots (h : u.Bounded) (hn : s.isSlice = false) (hm : u.misses s last = false) :
    (s.locate o last depth u).map Outcome.spots =
      match u.obstacle? s with
      | some e => o.stuck s.isOptional e
      | none   => .ok (.inr (u.spot.children (s.steps u.value))) := by
  have hs : u.stray? s = none :=
    View.stray?_eq_none_iff.mpr fun sl _ e => by simp [e, isSlice] at hn
  have hc : (u.follow s).map View.spot = u.spot.children (s.steps u.value) := by
    rw [View.follow_of_not_slice hn]
    refine (h.children_spot fun t ht => child?_isSome_of_mem_steps ?_ ht).symm
    exact fun sl _ e => by simp [e, isSlice] at hn
  rw [Frame.locate_of_not_misses hm, hs, Option.none_or]
  cases ho : u.obstacle? s with
  | none => simp [Except.map, Outcome.spots, hc]
  | some e =>
    rw [steps_of_obstacle? ho] at hc
    cases hst : o.strict && !s.isOptional <;>
      simp [hst, Options.stuck, Except.map, Outcome.spots, hc, Spot.children]

-- An optional index at the end misses where there is an obstacle.
theorem misses_index (h : u.Bounded) (i : Int) (q last : Bool) : u.misses (.index i q) last =
    (q && last && (u.obstacle? (.index i q)).isSome) := by
  have hf : (u.follow (.index i q)).isEmpty = (u.obstacle? (.index i q)).isSome := by
    rw [View.follow_of_not_slice rfl]
    cases hv : u.value <;> simp only [steps, View.obstacle?, hv]
    case arr items =>
      cases hr : resolveIndex i items.length with
      | none => simp
      | some n =>
        have hc : (u.value.child? (.index n)).isSome := by
          simpa [hv, Json.child?] using resolveIndex_lt hr
        have hc : (u.child? (.index n)).isSome := by
          simpa [View.child?, h.child?_source hc] using hc
        obtain ⟨w, hw⟩ := Option.isSome_iff_exists.mp hc
        simp [hw]
    all_goals rfl
  cases q <;> simp [View.misses, hf]

theorem visit_spot_index (h : u.Bounded) (i : Int) (q : Bool) :
    (index i q).visit o last depth u.spot =
      ((index i q).locate o last depth u).map Outcome.spots := by
  have hm := misses_index h i q last
  cases hql : q && last && (u.obstacle? (.index i q)).isSome
  case true =>
    have ⟨hq, ho⟩ := Bool.and_eq_true_iff.mp hql
    rw [Frame.locate_of_misses (hm.trans hql)]
    cases hv : u.value <;> simp only [visit, View.spot, hv, hq, if_true]
    case arr items =>
      cases hr : resolveIndex i items.length with
      | none   => rfl
      | some n => simp [View.obstacle?, hv, hr] at ho
    all_goals rfl
  case false =>
    rw [locate_spots h rfl (hm.trans hql)]
    cases hv : u.value <;>
      simp only [visit, View.obstacle?, View.spot, hv, steps, isOptional, Option.isSome_some,
        Bool.and_true] at hql ⊢
    case arr items =>
      cases hr : resolveIndex i items.length with
      | none =>
        have hql : (q && last) = false := by simpa [hr] using hql
        simp [hql]
      | some n => simp
    all_goals simp [hql]

theorem visit_spot_slice (h : u.Bounded) (sl : Slice) :
    (slice sl).visit o last depth u.spot =
      ((slice sl).locate o last depth u).map Outcome.spots := by
  rw [Frame.locate_of_not_misses rfl]
  by_cases hv : ∃ shown, u.value = .arr shown
  case pos =>
    have ⟨shown, hv⟩ := hv
    have ⟨items, hn⟩ := (View.value_eq_arr_iff h).mp ⟨shown, hv⟩
    have ho : u.obstacle? (.slice sl) = none := by simp [View.obstacle?, hv]
    have hp : (slice sl).visit o last depth u.spot =
        (u.spot.part sl shown).map fun w => .inr [w] := by
      simp only [visit, View.spot, hv]
    rw [ho, ite_self, Option.or_none, View.follow_slice hn, hp, h.part_spot hn hv]
    cases u.stray? (.slice sl) <;> rfl
  case neg =>
    have hn : ¬ ∃ items, u.node = .arr items := mt (View.value_eq_arr_iff h).mpr hv
    have ho : u.obstacle? (.slice sl) = some (.mismatch u.location .array u.value.kind) := by
      cases hc : u.value <;> simp_all [View.obstacle?]
    have hs : u.stray? (.slice sl) = none := by
      cases hc : u.value <;> simp_all [View.stray?]
    have hf : u.follow (.slice sl) = [] := by
      cases hc : u.node <;> simp_all [View.follow, steps_of_obstacle? ho]
    have hp : (slice sl).visit o last depth u.spot =
        o.stuck false (.mismatch u.location .array u.value.kind) := by
      cases hc : u.value <;> simp_all [visit, View.spot]
    rw [hp, hs, ho, hf, Option.none_or]
    cases hst : o.strict && !(slice sl).isOptional <;>
      simp_all [Options.stuck, isOptional, Except.map, Outcome.spots]

-- An addressable segment means the same for a view and for the spot that it looks like.
theorem visit_spot (h : u.Bounded) (ha : s.isAddressable = true) :
    s.visit o last depth u.spot = (s.locate o last depth u).map Outcome.spots := by
  cases s with
  | index i q => exact visit_spot_index h i q
  | slice sl  => exact visit_spot_slice h sl
  | key name q =>
    rw [locate_spots h rfl rfl]
    cases hv : u.value <;> simp only [visit, View.obstacle?, View.spot, hv, steps, isOptional]
    case obj ms => cases Members.contains ms name <;> rfl
  | children q | elements q | selector p text =>
    rw [locate_spots h rfl rfl]
    cases hv : u.value <;> simp [visit, View.obstacle?, View.spot, hv, steps, isOptional]
  | call f text | literal x | construct fields => cases ha

-- A computed value is a view of its own.
theorem bounded_of_stage {views : List View} (h : u.Bounded)
    (hv : s.stage o last depth u = .ok (.onward views)) : ∀ w ∈ views, w.Bounded := by
  cases ha : s.isAddressable
  case true =>
    rw [Frame.stage_of_isAddressable ha] at hv
    cases hm : u.misses s last
    case true =>
      rw [Frame.locate_of_misses hm] at hv
      cases hv
    case false =>
      rw [Frame.locate_of_not_misses hm] at hv
      split at hv
      case _ => cases hv
      case _ hs =>
        cases hv
        exact fun w hw => h.follow (Option.or_eq_none_iff.mp hs).1 hw
  case false =>
    have ⟨x, e⟩ : ∃ x, views = [u.replace x] := by
      cases s <;> simp only [isAddressable, Bool.true_eq_false] at ha <;> simp only [stage] at hv
      case call f text =>
        cases hx : f.apply o depth u.value <;> rw [hx] at hv <;> cases hv
        exact ⟨_, rfl⟩
      case literal x =>
        cases hv
        exact ⟨x, rfl⟩
      case construct fields =>
        cases hx : Path.fieldValues o (deeper depth) u.value fields <;> rw [hx] at hv <;> cases hv
        exact ⟨_, rfl⟩
    intro w hw
    have hw : w = u.replace x := List.mem_singleton.mp (e ▸ hw)
    exact hw ▸ View.bounded_of_origin_eq_none rfl

end Segment

mutual

theorem Segment.visit_eq (o : Options) : (s : Segment) → (last : Bool) → (depth : Nat) →
    (u : View) → u.Bounded → s.visit o last depth u.spot = (s.stage o last depth u).map Outcome.spots
  | .call f text, last, depth, u, _ => by
    simp only [Segment.visit, Segment.stage, View.spot, Builtin.evaluate_eq o f]
    cases f.apply o depth u.value <;> rfl
  | .literal x, _, _, _, _ => rfl
  | .construct fields, last, depth, u, _ => by
    simp only [Segment.visit, Segment.stage, View.spot, Path.evaluateFields_eq o fields]
    cases Path.fieldValues o (deeper depth) u.value fields <;> rfl
  | .key name q, _, _, _, h | .index i q, _, _, _, h | .children q, _, _, _, h
  | .elements q, _, _, _, h | .slice sl, _, _, _, h | .selector p text, _, _, _, h =>
    Segment.visit_spot h rfl

theorem Path.evaluate_eq (o : Options) : (p : List Segment) → (depth : Nat) → (u : View) →
    u.Bounded → Path.evaluate o p depth u.spot = Frame.runOf o.maxDepth (Path.stages o p) depth u
  | [], _, _, _ => rfl
  | s :: rest, depth, u, h => by
    have hl : (Path.stages o rest).isEmpty = rest.isEmpty := by cases rest <;> rfl
    rw [Path.evaluate, Path.stages, Frame.runOf, Segment.visit_eq o s rest.isEmpty depth u h, hl]
    split
    case isTrue => rfl
    case isFalse =>
      cases hs : s.stage o rest.isEmpty depth u with
      | error e => rfl
      | ok outcome =>
        cases outcome with
        | found m => rfl
        | onward views =>
          simp only [Except.map, Outcome.spots, Run.inTurn_map]
          have hb := Segment.bounded_of_stage h hs
          exact Run.inTurn_congr fun w hw => Path.evaluate_eq o rest (deeper depth) w (hb w hw)

theorem Path.evaluateFields_eq (o : Options) : (fields : List (String × List Segment)) →
    (depth : Nat) → (v : Json) →
    Path.evaluateFields o fields depth v = Path.fieldValues o depth v fields
  | [], _, _ => rfl
  | (name, p) :: rest, depth, v => by
    have hp := Path.evaluate_eq o p depth (.root v) (View.bounded_of_origin_eq_none rfl)
    have hc : (Cursor.start o.maxDepth false (Path.stages o p) depth v).all =
        (Path.evaluate o p depth (.root v)).all := by
      rw [← View.spot_root, hp]
      exact Cursor.all_start _ _ _ _
    rw [Path.evaluateFields, Path.fieldValues, hc, Path.evaluateFields_eq o rest]

theorem Builtin.evaluate_eq (o : Options) : (f : Builtin) → (depth : Nat) → (v : Json) →
    f.evaluate o depth v = f.apply o depth v
  | f, depth, v => by
    cases f
    case map m => exact Mapping.evaluate_eq o m depth v
    all_goals rfl

theorem Mapping.evaluate_eq (o : Options) : (m : Mapping) → (depth : Nat) → (v : Json) →
    m.evaluate o depth v = m.apply o depth v
  | .arithmetic op operand, depth, v => by
    cases v <;> rfl
  | .path p, depth, v => by
    have hp x := Path.evaluate_eq o p (deeper depth) (.root x) (View.bounded_of_origin_eq_none rfl)
    have hc x : ((Cursor.start o.maxDepth true (Path.stages o p) (deeper depth) x).first?).map
        (·.getD .null) =
          (Path.evaluate o p (deeper depth) (.root x)).first?.map fun m =>
            m.elim .null (·.value) := by
      rw [← View.spot_root, hp, Cursor.first?_start]
      cases (Frame.runOf o.maxDepth (Path.stages o p) (deeper depth) (.root x)).first? with
      | error e => rfl
      | ok m? => cases m? <;> rfl
    cases v <;> simp only [Mapping.evaluate, Mapping.apply, hc]

end

namespace Path

variable {o : Options} {v : Json} {p : Path}

theorem evaluate_root (o : Options) (p : Path) (depth : Nat) (v : Json) :
    evaluate o p depth (.root v) = Frame.runOf o.maxDepth (stages o p) depth (.root v) := by
  rw [← View.spot_root]
  exact evaluate_eq o p depth (.root v) (View.bounded_of_origin_eq_none rfl)

theorem run_cursor (o : Options) (v : Json) (p : Path) :
    (p.cursor o v).run = Path.evaluate o p 0 (.root v) := by
  rw [evaluate_root]
  exact Cursor.run_start ..

-- A read that does not stop after its first result is told everything that the evaluation comes to.
theorem answer_eq_results (h : o.onlyFirst = false) (n : Nat) :
    (p.cursor o v).answer n = (Path.evaluate o p 0 (.root v)).results[n]? := by
  have hr : (p.cursor o v).results = (p.cursor o v).run.results :=
    if_neg (by simp [cursor, Cursor.start, h])
  rw [Cursor.answer_eq, hr, run_cursor]

-- The calls of such a read are told what the evaluation of the path finds, in order, and then its
-- error if it has one. After the end or an error they are told nothing.
theorem answer_eq_evaluate (h : o.onlyFirst = false) :
    (∀ n, (p.cursor o v).answer n = (Path.evaluate o p 0 (.root v)).results[n]?) ∧
    ∀ n k, (p.cursor o v).answer n = none ∨ (∃ e, (p.cursor o v).answer n = some (.error e)) →
      n < k → (p.cursor o v).answer k = none := by
  refine ⟨answer_eq_results h, fun n k hn hk => ?_⟩
  rw [answer_eq_results h] at hn ⊢
  exact Run.results_after hn hk

theorem answer_eq_evaluate_map :
    let v : Json :=
      .arr [.arr [.obj [("b", .int 1)], .obj [("b", .int 2)]], .arr [.obj [("b", .int 3)]]]
    let p : Path := [.slice ⟨none, none, some (-1)⟩, .elements false,
      .construct [("bs", [.call (.map (.path [.key "b" false])) "map(b)"])]]
    (p.cursor .default v).answer 0 =
        some (.ok ⟨[.index 1], .obj [("bs", .arr [.int 3])]⟩) ∧
      (p.cursor .default v).answer 1 =
        some (.ok ⟨[.index 0], .obj [("bs", .arr [.int 1, .int 2])]⟩) ∧
      ∀ n, 2 ≤ n → (p.cursor .default v).answer n = none := by
  intro v p
  have ⟨hr, hl⟩ := answer_eq_evaluate (o := .default) (v := v) (p := p) rfl
  have hend : (p.cursor .default v).answer 2 = none := (hr 2).trans rfl
  refine ⟨(hr 0).trans rfl, (hr 1).trans rfl, fun n hn => ?_⟩
  cases Nat.eq_or_lt_of_le hn with
  | inl h => exact h ▸ hend
  | inr h => exact hl 2 n (.inl hend) h

end Path

end JsonQuery
