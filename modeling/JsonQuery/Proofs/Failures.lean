import JsonQuery.Proofs.Lens
import JsonQuery.Proofs.Removal

namespace JsonQuery

namespace View

variable {o : Options} {u w : View} {s : Segment} {p rest : Path} {e : Error} {depth : Nat}
  {last : Bool} {c : Cursor}

-- Where a key or an index leads nowhere, a read and an edit give the same reason for it.
theorem obstacle?_eq_absence (h : s.isConcrete = true) (ho : u.origin = none)
    (hf : u.follow s = []) : u.obstacle? s = some (u.absence s) := by
  have hs := steps_eq_nil_of_follow h ho hf
  have hv := value_of_origin_eq_none ho
  cases s <;> simp only [Segment.isConcrete, Bool.false_eq_true] at h
  case key name q =>
    cases hn : u.node <;> simp only [obstacle?, absence, hv, hn]
    case obj ms =>
      cases hm : Members.contains ms name
      case false => simp
      case true  => simp [hn, Segment.steps, hm] at hs
  case index i q =>
    cases hn : u.node <;> simp only [obstacle?, absence, hv, hn]
    case arr items =>
      cases hi : resolveIndex i items.length
      case none   => simp
      case some n => simp [hn, Segment.steps, hi] at hs

-- The path fails at its first segment that leads nowhere.
theorem resolve_of_stuck (hd : u.deepest p = (w, s :: rest)) : u.resolve p = .error (w.absence s) := by
  simp [resolve, hd]

theorem locate_of_stuck (hs : o.strict = true) (h : s.isConcrete = true)
    (hr : s.isOptional = false) (hf : u.follow s = []) (he : u.obstacle? s = some e) :
    s.locate o last depth u = .error e := by
  have hstray : u.stray? s = none := stray?_eq_none_iff.mpr fun sl _ e => by
    simp [e, Segment.isConcrete] at h
  cases s <;> simp_all [Segment.locate, Segment.isConcrete, Segment.isOptional]

-- A strict read of keys and indices fails at the first one that leads nowhere.
theorem next?_of_stuck (hs : o.strict = true) (h : p.isConcrete = true)
    (hr : ∀ s ∈ p, s.isOptional = false) (ho : u.origin = none)
    (hd : u.deepest p = (w, s :: rest)) (he : w.obstacle? s = some e)
    (hl : depth + p.length ≤ c.limit) (hc : c.stack = [⟨u, depth, Path.stages o p⟩]) :
    c.next? = some (.error e, c.finish) := by
  induction p generalizing u depth c with
  | nil => cases hd
  | cons t p ih =>
    simp only [Path.isConcrete, List.all_cons, Bool.and_eq_true] at h
    obtain ⟨hrt, hrp⟩ := List.forall_mem_cons.mp hr
    rw [List.length_cons] at hl
    have hdepth : depth ≤ c.limit := by omega
    rw [deepest] at hd
    split at hd
    case _ x ws hf =>
      obtain ⟨hx, ha⟩ := advance_of_follow (p := p) o h.1 ho hf hdepth
      rw [Cursor.next?_of_stack hc, ha]
      have := deeper_le depth
      exact ih h.2 hrp hx hd (show deeper depth + p.length ≤ c.limit by omega) rfl
    case _ hf =>
      obtain ⟨e₁, e₂⟩ := Prod.mk.inj hd
      obtain ⟨e₂, e₃⟩ := List.cons.inj e₂
      subst e₁ e₂
      have hst := Frame.stage_of_isAddressable (o := o) (Segment.isAddressable_of_isConcrete h.1)
      have ha : Frame.advance c.limit ⟨u, depth, Path.stages o (t :: p)⟩ = .error e := by
        simp only [Frame.advance, Nat.not_lt.mpr hdepth, if_false, Path.stages, hst,
          locate_of_stuck hs h.1 hrt hf he]
      rw [Cursor.next?_of_stack hc, ha]

-- The path can be followed up to the part of it that is left.
theorem exists_deepest_eq_nil (hd : u.deepest p = (w, rest)) :
    ∃ q, p = q ++ rest ∧ u.deepest q = (w, []) := by
  induction p generalizing u with
  | nil =>
    cases hd
    exact ⟨[], rfl, rfl⟩
  | cons t p ih =>
    rw [deepest] at hd
    split at hd
    case _ x ws hf =>
      obtain ⟨q, e, hq⟩ := ih hd
      exact ⟨t :: q, by simp [e], by simpa [deepest, hf] using hq⟩
    case _ hf =>
      cases hd
      exact ⟨[], rfl, rfl⟩

end View

namespace Path

variable {o : Options} {v x r : Json} {p rest : Path} {s : Segment} {w : View} {e : Error}
  {l : Location} {ms : List (String × Json)} {k : String}

theorem get_of_stuck (hs : o.strict = true) (h : p.isConcrete = true)
    (hr : ∀ s ∈ p, s.isOptional = false) (hd : (View.root v).deepest p = (w, s :: rest))
    (he : w.obstacle? s = some e) (hl : p.length ≤ o.maxDepth) :
    Query.get ⟨p, o⟩ v = .error e := by
  have hn := View.next?_of_stuck hs h hr rfl hd he (c := p.cursor o v)
    (by simpa [cursor, Cursor.start] using hl) rfl
  simp [Query.get, Query.cursor, Cursor.all_eq, hn, Except.map]

theorem delete_of_stuck (ht : o.tolerantDelete = false) (h : p.isConcrete = true)
    (hr : ∀ s ∈ p, s.isOptional = false) (hd : (View.root v).deepest p = (w, s :: rest)) :
    p.delete o v = .error (w.absence s) := by
  have hp : p.isEmpty = false := by
    cases p with
    | nil      => cases hd
    | cons _ _ => rfl
  have hopt : p.any (·.isOptional) = false := by simpa using hr
  have hrem : removals o v p = .error (w.absence s) := by
    simp [removals, h, View.resolve_of_stuck hd, ht, hopt]
  simp [delete, ensureAddressable_eq_ok (isAddressable_of_isConcrete h), hp, hrem, bind, Except.bind]

theorem exists_delete_of_deepest (o : Options) (hv : v.WellFormed) (h : p.isConcrete = true)
    (hp : p ≠ []) (hd : (View.root v).deepest p = (w, [])) : ∃ r, p.delete o v = .ok r := by
  have hrem : removals o v p = .ok [w.location] := by simp [removals, h, View.resolve, hd]
  refine ⟨_, delete_eq_removeAll hv (isAddressable_of_isConcrete h) hp hrem fun l hl => ?_⟩
  rw [List.mem_singleton.mp hl, View.at?_of_deepest h hd]
  rfl

-- A write that may not create anything fails where the path does, unless an object takes a new key.
theorem write_of_stuck (h : p.isConcrete = true) (hd : (View.root v).deepest p = (w, s :: rest))
    (hn : w.newLocations (s :: rest) = []) (hl : p.length ≤ o.maxDepth) (op : Operation) (x : Json) :
    p.write o false op v x = .error (w.absence s) := by
  have ht := targets_absent_of_deepest h hd hl
  rw [hn] at ht
  simp [write, ensureAddressable_eq_ok (isAddressable_of_isConcrete h), ht, h,
    View.resolve_of_stuck hd, bind, Except.bind, Except.map]

-- All that a path lacks is its last key, in an object at this location with these members.
def LacksLast (v : Json) (p : Path) (l : Location) (ms : List (String × Json)) (k : String) : Prop :=
  ∃ q, p = q ++ [.key k false] ∧ (View.root v).resolve q = .ok l ∧ v.at? l = some (.obj ms) ∧
    k ∉ Members.keys ms

theorem deepest_of_lacksLast (h : p.isConcrete = true) (hk : LacksLast v p l ms k) :
    ∃ w, (View.root v).deepest p = (w, [.key k false]) ∧ w.location = l ∧ w.node = .obj ms ∧
      w.absence (.key k false) = .missingKey (l ++ [.key k]) := by
  obtain ⟨q, e, hq, hl, hk⟩ := hk
  subst e
  have hc : isConcrete q = true := by
    simp only [isConcrete, List.all_append, Bool.and_eq_true] at h
    exact h.1
  obtain ⟨w, hd, e⟩ := View.resolve_eq_ok_iff.mp hq
  subst e
  have hn : w.node = .obj ms := Option.some.inj ((View.at?_of_deepest hc hd).symm.trans hl)
  have ho : w.origin = none := (View.deepest_alter? hc rfl hd).1
  have hv := View.value_of_origin_eq_none ho
  have hm : Members.contains ms k = false := by
    simpa [← Members.contains_iff_mem_keys] using hk
  have hf : w.follow (.key k false) = [] := by
    rw [View.follow_of_not_slice rfl, hv, hn]
    simp [Segment.steps, hm]
  refine ⟨w, ?_, rfl, hn, by simp [View.absence, hv, hn]⟩
  rw [View.deepest_append, hd]
  simp [View.deepest, hf]

theorem lacksLast_of_newLocations (h : p.isConcrete = true) (hr : ∀ s ∈ p, s.isOptional = false)
    (hd : (View.root v).deepest p = (w, s :: rest)) (hn : w.newLocations (s :: rest) ≠ []) :
    ∃ l ms k, LacksLast v p l ms k := by
  obtain ⟨q, e, hq⟩ := View.exists_deepest_eq_nil hd
  subst e
  have hc : isConcrete q = true := by
    simp only [isConcrete, List.all_append, Bool.and_eq_true] at h
    exact h.1
  have ho : w.origin = none := (View.deepest_alter? hc rfl hq).1
  have hf := View.follow_of_deepest hd
  have hs := hr s (by simp)
  cases rest with
  | cons _ _ => simp [View.newLocations] at hn
  | nil =>
    cases s <;> cases hnode : w.node <;>
      simp only [View.newLocations, Segment.newStep?, hnode, Option.toList_none, List.map_nil, ne_eq,
        not_true_eq_false] at hn
    case key.obj k opt ms =>
      cases hs
      have hl := hnode ▸ View.at?_of_deepest hc hq
      have hsteps := View.steps_eq_nil_of_follow rfl ho hf
      have hk : k ∉ Members.keys ms := by
        rw [← Members.contains_iff_mem_keys]
        intro hm
        simp [hnode, Segment.steps, hm] at hsteps
      exact ⟨w.location, ms, k, q, rfl, View.resolve_eq_ok_iff.mpr ⟨w, hq, rfl⟩, hl, hk⟩

theorem write_of_lacksLast (h : p.isConcrete = true) (hl : p.length ≤ o.maxDepth)
    (hk : LacksLast v p l ms k) (creating : Bool) (x : Json) : ∃ r,
    p.write o creating .set v x = .ok r ∧
      v.alter? l (fun _ => some (.obj (ms ++ [(k, x)]))) = some r := by
  obtain ⟨w, hd, e, hn, _⟩ := deepest_of_lacksLast h hk
  subst e
  obtain ⟨_, _, _, _, hk⟩ := hk
  have hput : w.node.put [.key k] x = .obj (ms ++ [(k, x)]) := by
    simp [hn, Json.put, Json.membersOf, Members.insert_of_not_mem hk]
  have hnew : (Segment.key k false).newStep? w.node = some (.key k) := by rw [hn]; rfl
  obtain ⟨r, hr, _⟩ := View.exists_alter?_of_deepest h hd (w.node.put [.key k] x)
  exact ⟨r, (write_of_newStep? h hd hnew hl).mpr ⟨x, rfl, hr⟩, hput ▸ hr⟩

-- A strict read, a removal that is not tolerant and a write that may not create anything fail in the
-- same cases and for the same reason, except that a write adds a key that only the object at the end
-- of its path lacks. Where they do not fail, the read has one result.
theorem failures_agree (o : Options) (hv : v.WellFormed)
    (hr : ∀ s ∈ p, s.isConcrete = true ∧ s.isOptional = false) (hp : p ≠ [])
    (hl : p.length ≤ o.maxDepth) (x : Json) :
    let read := Query.get ⟨p, { o with strict := true }⟩ v
    let removal := Query.delete ⟨p, { o with tolerantDelete := false }⟩ v
    let write := Query.write ⟨p, { o with createMissing := false }⟩ .set v x
    (∀ e, read = .error e ↔ removal = .error e) ∧
    (∀ e, write = .error e ↔ removal = .error e ∧ ¬ ∃ l ms k, LacksLast v p l ms k) ∧
    (∀ l ms k, LacksLast v p l ms k → removal = .error (.missingKey (l ++ [.key k])) ∧
      ∃ r, write = .ok r ∧ v.alter? l (fun _ => some (.obj (ms ++ [(k, x)]))) = some r) ∧
    ((∀ e, removal ≠ .error e) → ∃ y, read = .ok [y] ∧ p.current? v = some y) := by
  intro read removal write
  have h : p.isConcrete = true := List.all_eq_true.mpr fun s hs => (hr s hs).1
  have hr : ∀ s ∈ p, s.isOptional = false := fun s hs => (hr s hs).2
  have hadd (l ms k) (hk : LacksLast v p l ms k) : removal = .error (.missingKey (l ++ [.key k])) ∧
      ∃ r, write = .ok r ∧ v.alter? l (fun _ => some (.obj (ms ++ [(k, x)]))) = some r := by
    obtain ⟨w, hd, _, _, he⟩ := deepest_of_lacksLast h hk
    exact ⟨he ▸ delete_of_stuck rfl h hr hd,
      write_of_lacksLast (o := { o with createMissing := false }) h hl hk false x⟩
  rcases hd : (View.root v).deepest p with ⟨w, _ | ⟨s, rest⟩⟩
  case nil =>
    have hread : read = .ok [w.node] := get_of_deepest { o with strict := true } h hd hl
    obtain ⟨r, hrem⟩ : ∃ r, removal = .ok r :=
      exists_delete_of_deepest { o with tolerantDelete := false } hv h hp hd
    obtain ⟨r', hr', _⟩ := View.exists_alter?_of_deepest h hd x
    have hw : write = .ok r' :=
      (write_of_resolved (o := { o with createMissing := false }) h hd hl).mpr ⟨x, rfl, hr'⟩
    refine ⟨by simp [hread, hrem], by simp [hw, hrem], hadd, fun _ => ?_⟩
    exact ⟨w.node, hread, by simp [current?_of_deepest h hd]⟩
  case cons =>
    have hs : s ∈ p := (View.deepest_alter? h rfl hd).2.1.subset List.mem_cons_self
    have ho : w.origin = none := (View.deepest_alter? h rfl hd).1
    have hc := List.all_eq_true.mp h s hs
    have he := View.obstacle?_eq_absence hc ho (View.follow_of_deepest hd)
    have hread : read = .error (w.absence s) := get_of_stuck rfl h hr hd he hl
    have hrem : removal = .error (w.absence s) := delete_of_stuck rfl h hr hd
    refine ⟨fun e => by rw [hread, hrem]; simp, fun e => ?write, hadd, fun hn => absurd hrem (hn _)⟩
    case write =>
      by_cases hn : w.newLocations (s :: rest) = []
      case pos =>
        have hw : write = .error (w.absence s) :=
          write_of_stuck (o := { o with createMissing := false }) h hd hn hl .set x
        have hk : ¬ ∃ l ms k, LacksLast v p l ms k := by
          rintro ⟨l, ms, k, hk⟩
          obtain ⟨w', hd', _, hnode, _⟩ := deepest_of_lacksLast h hk
          cases hd.symm.trans hd'
          simp [View.newLocations, hnode, Segment.newStep?] at hn
        rw [hw, hrem]
        exact ⟨fun e => ⟨e, hk⟩, And.left⟩
      case neg =>
        obtain ⟨l, ms, k, hk⟩ := lacksLast_of_newLocations h hr hd hn
        obtain ⟨_, r, hw, _⟩ := hadd l ms k hk
        rw [hw]
        exact ⟨(fun h => by cases h), fun h => absurd ⟨l, ms, k, hk⟩ h.2⟩

theorem failures_agree_mixed :
    let v : Json := .obj [("a", .arr [.int 0, .obj [("b", .null)]])]
    let p : Path := [.key "a" false, .index (-1) false, .key "c" false]
    let q : Path := [.key "a" false, .index (-3) false, .key "c" false]
    Query.get ⟨p, { Options.default with strict := true }⟩ v =
      .error (.missingKey [.key "a", .index 1, .key "c"]) ∧
    (∃ r, Query.write ⟨p, { Options.default with createMissing := false }⟩ .set v (.int 2) = .ok r) ∧
    Query.write ⟨q, { Options.default with createMissing := false }⟩ .set v (.int 2) =
      .error (.missingIndex [.key "a"] (-3)) := by
  intro v p q
  have hv : v.WellFormed := by
    simp [v, Json.WellFormed, Json.WellFormedMembers, Json.WellFormedItems, Json.int, Members.keys]
  obtain ⟨hread, _, hadd, _⟩ := failures_agree .default hv (p := p) (by decide) (by simp [p])
    (by decide) (.int 2)
  obtain ⟨_, hwrite, _, _⟩ := failures_agree .default hv (p := q) (by decide) (by simp [q])
    (by decide) (.int 2)
  have hk : LacksLast v p [.key "a", .index 1] [("b", .null)] "c" :=
    ⟨[.key "a" false, .index (-1) false], rfl, rfl, rfl, by decide⟩
  obtain ⟨hrem, r, hw, _⟩ := hadd _ _ _ hk
  refine ⟨(hread _).mpr hrem, ⟨r, hw⟩, (hwrite _).mpr ⟨rfl, ?_⟩⟩
  rintro ⟨l, ms, k, hk⟩
  obtain ⟨w, hd, _⟩ := deepest_of_lacksLast rfl hk
  cases hd

end Path

end JsonQuery
