import JsonQuery.Proofs.Deepest
import JsonQuery.Proofs.Writes
import JsonQuery.Query

namespace JsonQuery

namespace View

variable {o : Options} {u w : View} {ws : List View} {s : Segment} {p : Path} {limit depth : Nat}
  {last : Bool} {c : Cursor}

-- A key or an index that leads to a view is no obstacle.
theorem obstacle?_of_follow (h : s.isConcrete = true) (ho : u.origin = none)
    (hf : u.follow s = w :: ws) : u.obstacle? s = none := by
  obtain ⟨t, d, hs, hc, _⟩ := eq_of_follow h ho hf
  have hv := value_of_origin_eq_none ho
  cases s <;> simp only [Segment.isConcrete, Bool.false_eq_true] at h
  case key name q =>
    cases hn : u.node <;> simp only [hn, Segment.steps, List.ne_cons_self] at hs
    case obj ms =>
      cases hm : Members.contains ms name
      case false => simp [hm] at hs
      case true  => simp [obstacle?, hv, hn, hm]
  case index i q =>
    cases hn : u.node <;> simp only [hn, Segment.steps, reduceCtorEq] at hs
    case arr items =>
      cases hi : resolveIndex i items.length <;> simp [hi] at hs
      simp [obstacle?, hv, hn, hi]

theorem locate_of_follow (o : Options) (h : s.isConcrete = true) (ho : u.origin = none)
    (hf : u.follow s = w :: ws) : s.locate o last depth u = .ok (.onward (w :: ws)) := by
  have hs : u.stray? s = none := stray?_eq_none_iff.mpr fun sl _ e => by
    simp [e, Segment.isConcrete] at h
  simp [Segment.locate, hf, hs, obstacle?_of_follow h ho hf]

-- A branch takes a key or an index that leads to a view and goes on there.
theorem advance_of_follow (o : Options) (h : s.isConcrete = true) (ho : u.origin = none)
    (hf : u.follow s = w :: ws) (hd : depth ≤ limit) :
    w.origin = none ∧ Frame.advance limit ⟨u, depth, Path.stages o (s :: p)⟩ =
      .ok (.inr [⟨w, deeper depth, Path.stages o p⟩]) := by
  obtain ⟨t, d, hs, hcd, e⟩ := eq_of_follow h ho hf
  have hf := follow_eq_singleton h ho hs hcd
  rw [← e] at hf
  have hst := Frame.stage_of_isAddressable (o := o) (Segment.isAddressable_of_isConcrete h)
  refine ⟨e ▸ rfl, ?_⟩
  simp only [Frame.advance, Nat.not_lt.mpr hd, if_false, Path.stages, hst,
    locate_of_follow o h ho hf]
  rfl

-- A read of a path of keys and indices that can be followed to its end has one result, whatever the
-- options are.
theorem next?_of_deepest (o : Options) (h : p.isConcrete = true) (ho : u.origin = none)
    (hd : u.deepest p = (w, [])) (hl : depth + p.length ≤ c.limit)
    (hc : c.stack = [⟨u, depth, Path.stages o p⟩]) :
    ∃ c', c.next? = some (.ok ⟨w.location, w.value⟩, c') ∧ c'.stack = [] := by
  induction p generalizing u depth c with
  | nil =>
    cases hd
    have ha : Frame.advance c.limit ⟨w, depth, []⟩ = .ok (.inl ⟨w.location, w.value⟩) := by
      simpa [Frame.advance] using hl
    refine ⟨_, by rw [Cursor.next?_of_stack hc, Path.stages, ha], ?_⟩
    split <;> rfl
  | cons s p ih =>
    simp only [Path.isConcrete, List.all_cons, Bool.and_eq_true] at h
    rw [List.length_cons] at hl
    rw [deepest] at hd
    split at hd
    case _ x ws hf =>
      obtain ⟨hx, ha⟩ := advance_of_follow (p := p) o h.1 ho hf (show depth ≤ c.limit by omega)
      rw [Cursor.next?_of_stack hc, ha]
      have := deeper_le depth
      exact ih h.2 hx hd (show deeper depth + p.length ≤ c.limit by omega) rfl
    case _ => cases hd

end View

namespace Path

variable {o : Options} {v : Json} {p : Path} {w : View}

theorem get_of_deepest (o : Options) (h : p.isConcrete = true)
    (hd : (View.root v).deepest p = (w, [])) (hl : p.length ≤ o.maxDepth) :
    Query.get ⟨p, o⟩ v = .ok [w.node] := by
  obtain ⟨c, hn, hc⟩ := View.next?_of_deepest o h rfl hd (c := p.cursor o v)
    (by simpa [cursor, Cursor.start] using hl) rfl
  have hall : (p.cursor o v).all = .ok [⟨w.location, w.value⟩] := by
    rw [Cursor.all_eq, hn]
    simp [Cursor.all_of_stack_eq_nil hc, Except.map]
  simp [Query.get, Query.cursor, hall, Except.map, View.value_of_deepest h hd]

-- Whether a write to a path takes these steps below the view that the path can be followed to: there
-- is nothing left of the path, an object takes a new key, or a tail may be made.
def Admits (o : Options) (creating : Bool) (w : View) (rest : Path) (steps : Location) : Prop :=
  newSteps w.location rest = .ok steps ∧
    (w.newLocations rest ≠ [] ∨ (creating = true ∧
      checkPadding o.maxPadding w.location w.node.itemsOf.length steps = .ok ()))

variable {rest : Path} {creating : Bool} {op : Operation} {x r : Json}

theorem applyAll_singleton {c : Change} : Change.applyAll v [c] = .ok r ↔ c.run? v = some r := by
  simp only [Change.applyAll, Change.applyFrom]
  cases c.run? v <;> simp

theorem write_singleton {l : Location} {made : Except Error Json} {f : Json → Change}
    (h : p.isConcrete = true) (ht : targets o.maxDepth true v p = .ok [l])
    (hc : writeChange op v x l = made.map f) : p.write o creating op v x = .ok r ↔
      ∃ y, made = .ok y ∧ (f y).run? v = some r := by
  rw [write_of_targets (isAddressable_of_isConcrete h) ht (by simp), List.mapM_cons, hc]
  cases made with
  | error e => simp [bind, Except.bind, Except.map]
  | ok y    => exact applyAll_singleton.trans (by simp)

-- A write to a location that exists.
theorem write_of_resolved (h : p.isConcrete = true) (hd : (View.root v).deepest p = (w, []))
    (hl : p.length ≤ o.maxDepth) : p.write o creating op v x = .ok r ↔
      ∃ y, op.apply (some w.node) x = .ok y ∧
        v.alter? w.location (fun _ => some y) = some r := by
  have hc : writeChange op v x w.location =
      (op.apply (some w.node) x).map (.replace w.location) := by
    simp [writeChange, View.at?_of_deepest h hd]
  exact write_singleton h (targets_absent_of_deepest h hd hl) hc

theorem newSteps_of_newStep? {s : Segment} {t : Step} {c : Json} (h : s.newStep? c = some t)
    (l : Location) : newSteps l [s] = .ok [t] := by
  cases s <;> cases c <;> cases h
  rfl

-- A write to a key that an object does not have yet.
theorem write_of_newStep? {s : Segment} {t : Step} (h : p.isConcrete = true)
    (hd : (View.root v).deepest p = (w, [s])) (hn : s.newStep? w.node = some t)
    (hl : p.length ≤ o.maxDepth) : p.write o creating op v x = .ok r ↔
      ∃ y, op.apply none x = .ok y ∧
        v.alter? w.location (fun _ => some (w.node.put [t] y)) = some r := by
  have ht := targets_absent_of_deepest h hd hl
  have hw := View.at?_of_deepest h hd
  have hf := View.follow_of_deepest hd
  have ho := (View.deepest_alter? h rfl hd).1
  cases s <;> cases hnode : w.node <;> simp only [hnode, Segment.newStep?, reduceCtorEq] at hn
  case key.obj name q ms =>
    cases hn
    have hs := View.steps_eq_nil_of_follow rfl ho hf
    have hm : Members.get? ms name = none := by
      cases hm : Members.get? ms name with
      | none   => rfl
      | some c => simp [hnode, Segment.steps, Members.contains, hm] at hs
    have hat : v.at? (w.location ++ [.key name]) = none := by
      simp [Json.at?_snoc, hw, hnode, Json.child?, hm]
    have hc : writeChange op v x (w.location ++ [.key name]) =
        (op.apply none x).map (.add (w.location ++ [.key name])) := by
      simp [writeChange, hat]
    have hrun (y : Json) : (Change.add (w.location ++ [.key name]) y).run? v =
        v.alter? w.location fun _ => some (w.node.put [.key name] y) := by
      simp only [Change.run?, List.getLast?_concat, List.dropLast_concat]
      exact Json.alter?_congr hw (by simp [hnode, Json.addChild?, Json.put, Json.membersOf])
    simp only [View.newLocations, hnode, Segment.newStep?, Option.toList_some, List.map_cons,
      List.map_nil] at ht
    simp only [← hnode, ← hrun]
    exact write_singleton h ht hc

-- A write that makes the tail of its path.
theorem write_of_unreached (h : p.isConcrete = true) (hd : (View.root v).deepest p = (w, rest))
    (hn : w.newLocations rest = []) (hl : p.length ≤ o.maxDepth) :
    p.write o creating op v x = .ok r ↔ creating = true ∧ ∃ steps y,
      newSteps w.location rest = .ok steps ∧
      checkPadding o.maxPadding w.location w.node.itemsOf.length steps = .ok () ∧
      op.apply none x = .ok y ∧
      v.alter? w.location (fun _ => some (w.node.put steps y)) = some r := by
  have hv := View.value_of_deepest h hd
  have ht := targets_absent_of_deepest h hd hl
  rw [hn] at ht
  simp only [write, ensureAddressable_eq_ok (isAddressable_of_isConcrete h), ht, bind, Except.bind,
    List.isEmpty_nil, if_true, h, Bool.not_true, Bool.false_eq_true, if_false]
  cases creating
  case false =>
    have hr : ∃ e, (View.root v).resolve p = .error e := by
      cases rest with
      | nil => simp [View.newLocations] at hn
      | cons s rest => exact ⟨_, by rw [View.resolve, hd]⟩
    obtain ⟨e, hr⟩ := hr
    simp [hr, Except.map]
  case true =>
    simp only [if_true, create, hd, hv, bind, Except.bind]
    cases newSteps w.location rest with
    | error e => simp
    | ok steps =>
      cases hp : checkPadding o.maxPadding w.location w.node.itemsOf.length steps with
      | error e => simp [hp]
      | ok =>
        cases op.apply none x with
        | error e => simp [hp]
        | ok y =>
          simp only [hp]
          exact applyAll_singleton.trans (by simp [Change.run?, hp])

theorem write_of_length_lt (h : p.isConcrete = true) (hl : o.maxDepth < p.length) :
    p.write o creating op v x = .error (.tooDeep o.maxDepth) := by
  simp [write, ensureAddressable_eq_ok (isAddressable_of_isConcrete h), targets_of_length_lt hl, bind,
    Except.bind]

theorem length_le_of_write (h : p.isConcrete = true) (hw : p.write o creating op v x = .ok r) :
    p.length ≤ o.maxDepth := by
  refine Nat.not_lt.mp fun hl => ?_
  simp [write_of_length_lt h hl] at hw

-- A write puts its value at the steps that are left of the path, below the view that the path can be
-- followed to.
theorem write_eq_ok_iff (h : p.isConcrete = true) (hd : (View.root v).deepest p = (w, rest)) :
    p.write o creating op v x = .ok r ↔ p.length ≤ o.maxDepth ∧ ∃ steps y,
      Admits o creating w rest steps ∧
      op.apply (if rest.isEmpty then some w.node else none) x = .ok y ∧
      v.alter? w.location (fun _ => some (w.node.put steps y)) = some r := by
  by_cases hl : p.length ≤ o.maxDepth
  case neg => exact ⟨fun hw => absurd (length_le_of_write h hw) hl, fun hw => absurd hw.1 hl⟩
  case pos =>
    simp only [hl, true_and, Admits]
    by_cases hn : w.newLocations rest = []
    case pos =>
      have hr : rest.isEmpty = false := by
        cases rest with
        | nil      => simp [View.newLocations] at hn
        | cons _ _ => rfl
      rw [write_of_unreached h hd hn hl]
      simp only [hn, ne_eq, not_true_eq_false, false_or, hr, Bool.false_eq_true, if_false]
      constructor
      case mp =>
        rintro ⟨hc, steps, y, hs, hp, hy, hr⟩
        exact ⟨steps, y, ⟨hs, hc, hp⟩, hy, hr⟩
      case mpr =>
        rintro ⟨steps, y, ⟨hs, hc, hp⟩, hy, hr⟩
        exact ⟨hc, steps, y, hs, hp, hy, hr⟩
    case neg =>
      simp only [hn, ne_eq, not_false_eq_true, true_or, and_true]
      rcases rest with _ | ⟨s, _ | ⟨s', rest⟩⟩
      case nil =>
        rw [write_of_resolved h hd hl]
        constructor
        case mp =>
          rintro ⟨y, hy, hr⟩
          exact ⟨[], y, rfl, hy, hr⟩
        case mpr =>
          rintro ⟨steps, y, hs, hy, hr⟩
          cases hs
          exact ⟨y, hy, hr⟩
      case cons.nil =>
        cases ht : s.newStep? w.node with
        | none   => simp [View.newLocations, ht] at hn
        | some t =>
          have hs := newSteps_of_newStep? ht w.location
          rw [write_of_newStep? h hd ht hl]
          constructor
          case mp =>
            rintro ⟨y, hy, hr⟩
            exact ⟨[t], y, hs, hy, hr⟩
          case mpr =>
            rintro ⟨steps, y, hs', hy, hr⟩
            cases hs.symm.trans hs'
            exact ⟨y, hy, hr⟩
      case cons.cons => simp [View.newLocations] at hn

-- The value that a path of keys and indices resolves to.
def current? (v : Json) (p : Path) : Option Json := ((View.root v).resolve p).toOption.bind v.at?

theorem current?_of_deepest (h : p.isConcrete = true) (hd : (View.root v).deepest p = (w, rest)) :
    p.current? v = if rest.isEmpty then some w.node else none := by
  cases rest with
  | nil        => simp [current?, View.resolve, hd, Except.toOption, View.at?_of_deepest h hd]
  | cons s rest => simp [current?, View.resolve, hd, Except.toOption]

-- What a write leaves at its path is the value that it made of the old one.
theorem deepest_of_write (h : p.isConcrete = true) (hw : p.write o creating op v x = .ok r) :
    ∃ l y, op.apply (p.current? v) x = .ok y ∧ (View.root r).deepest p = (⟨l, y, none⟩, []) := by
  rcases hd : (View.root v).deepest p with ⟨w, rest⟩
  obtain ⟨_, steps, y, ⟨hs, _⟩, hy, hr⟩ := (write_eq_ok_iff h hd).mp hw
  obtain ⟨r', hr', hdeep⟩ := View.exists_alter?_of_deepest h hd (w.node.put steps y)
  have e : r = r' := Option.some.inj (hr.symm.trans hr')
  rw [← current?_of_deepest h hd] at hy
  exact ⟨w.location ++ steps, y, hy, by rw [e, hdeep, deepest_put hs]⟩

-- A second write to a path comes to the same as if there had been no first one.
theorem write_of_write (h : p.isConcrete = true) (hw : p.write o creating op v x = .ok r)
    (y : Json) : ∃ r', p.write o creating .set v y = .ok r' ∧ p.write o creating .set r y = .ok r' := by
  rcases hd : (View.root v).deepest p with ⟨w, rest⟩
  obtain ⟨hl, steps, z, ha, _, hr⟩ := (write_eq_ok_iff h hd).mp hw
  obtain ⟨r₁, hr₁, hdeep⟩ := View.exists_alter?_of_deepest h hd (w.node.put steps z)
  have e : r = r₁ := Option.some.inj (hr.symm.trans hr₁)
  obtain ⟨r', hr', _⟩ := View.exists_alter?_of_deepest h hd (w.node.put steps y)
  have hd' : (View.root r).deepest p = (⟨w.location ++ steps, z, none⟩, []) := by
    rw [e, hdeep, deepest_put ha.1]
  refine ⟨r', (write_eq_ok_iff h hd).mpr ⟨hl, steps, y, ha, rfl, hr'⟩, ?_⟩
  refine (write_eq_ok_iff h hd').mpr ⟨hl, [], y, ⟨rfl, .inl (by simp [View.newLocations])⟩, rfl, ?_⟩
  rw [Json.alter?_append, Json.alter?_alter? hr, ← hr']
  exact Json.alter?_congr (View.at?_of_deepest h hd) (Json.alter?_put _ _ _ _)

-- A write of the value that is there changes nothing.
theorem write_current (h : p.isConcrete = true) (hl : p.length ≤ o.maxDepth)
    (hx : p.current? v = some x) : p.write o creating .set v x = .ok v := by
  rcases hd : (View.root v).deepest p with ⟨w, _ | ⟨s, rest⟩⟩
  case cons => simp [current?_of_deepest h hd] at hx
  case nil =>
    have e : w.node = x := by simpa [current?_of_deepest h hd] using hx
    refine (write_eq_ok_iff h hd).mpr
      ⟨hl, [], x, ⟨rfl, .inl (by simp [View.newLocations])⟩, rfl, ?_⟩
    exact Json.alter?_self (View.at?_of_deepest h hd) (congrArg some e.symm)

-- A path of keys and indices is a lens. A read finds what a write made of the old value, whether the
-- path existed, a key was new or a tail was made for it. The last of two writes decides, and the value
-- that is there can be written without a change.
theorem write_lens (o : Options) (creating : Bool) (v : Json) (h : p.isConcrete = true) :
    (∀ op x r, p.write o creating op v x = .ok r →
      ∃ y, op.apply (p.current? v) x = .ok y ∧ Query.get ⟨p, o⟩ r = .ok [y]) ∧
    (∀ op x y r, p.write o creating op v x = .ok r →
      ∃ r', p.write o creating .set v y = .ok r' ∧ p.write o creating .set r y = .ok r') ∧
    (∀ y, p.current? v = some y → p.write o creating .set v y =
      if p.length ≤ o.maxDepth then .ok v else .error (.tooDeep o.maxDepth)) := by
  refine ⟨fun op x r hw => ?_, fun op x y r hw => write_of_write h hw y, fun y hy => ?_⟩
  case refine_1 =>
    obtain ⟨l, y, hy, hd⟩ := deepest_of_write h hw
    exact ⟨y, hy, get_of_deepest o h hd (length_le_of_write h hw)⟩
  case refine_2 =>
    split
    case isTrue hl  => exact write_current h hl hy
    case isFalse hl => exact write_of_length_lt h (Nat.lt_of_not_le hl)

theorem write_lens_negative :
    let v : Json := .obj [("a", .arr [.int 1, .int 2])]
    let p : Path := [.key "a" false, .index (-1) false, .key "b" false, .index 2 true]
    ∃ r, p.write .default true .append v (.int 3) = .ok r ∧
      Query.get ⟨p, .default⟩ r = .ok [.arr [.int 3]] := by
  intro v p
  obtain ⟨r, hr⟩ : ∃ r, p.write .default true .append v (.int 3) = .ok r := ⟨_, rfl⟩
  obtain ⟨y, hy, hg⟩ := (write_lens .default true v (p := p) (by decide)).1 .append (.int 3) r hr
  cases hy
  exact ⟨r, hr, hg⟩

-- A path that is longer than the depth limit resolves, but not even the value that is there can be
-- written to it.
theorem write_lens_too_deep :
    let v : Json := .obj [("a", .int 1)]
    let p : Path := [.key "a" false]
    let o : Options := { Options.default with maxDepth := 0 }
    p.isConcrete = true ∧ p.current? v = some (.int 1) ∧
      p.write o true .set v (.int 1) = .error (.tooDeep 0) :=
  ⟨rfl, rfl, rfl⟩

end Path

end JsonQuery
