import JsonQuery.Proofs.Children
import JsonQuery.Proofs.Concrete
import JsonQuery.Edit.Write

namespace JsonQuery

namespace Segment

variable {s : Segment} {c d : Json} {t : Step}

-- Another child in the place of one does not change what a key or an index names.
theorem steps_setChild (h : s.isConcrete = true) (hc : c.child? t = some d) (x : Json) :
    s.steps (c.setChild t x) = s.steps c := by
  cases c <;> cases t <;> simp only [Json.child?, reduceCtorEq] at hc
  case arr.index items i =>
    cases s <;> simp only [isConcrete, Bool.false_eq_true] at h <;> simp [steps, Json.setChild]
  case obj.key ms k =>
    have hk : k ∈ Members.keys ms := Members.mem_keys_of_get? hc
    have hm (name : String) :
        Members.contains (Members.insert ms k x) name = Members.contains ms name := by
      rw [Bool.eq_iff_iff, Members.contains_iff_mem_keys, Members.contains_iff_mem_keys,
        Members.keys_insert, if_pos hk]
    cases s <;> simp only [isConcrete, Bool.false_eq_true] at h <;>
      simp [steps, Json.setChild, hm]

-- The step that a key or an index names in a container that is still to be made.
def freshStep? : Segment → Option Step
  | key name _ => some (.key name)
  | index i _  => if i < 0 then none else some (.index i.toNat)
  | _          => none

-- It is the one that leads to a value that was put there.
theorem steps_put (h : s.freshStep? = some t) (c x : Json) (ts : Location) :
    s.isConcrete = true ∧ s.steps (c.put (t :: ts) x) = [t] ∧
      ∃ d : Json, (c.put (t :: ts) x).child? t = some (d.put ts x) := by
  cases s <;> simp only [freshStep?, reduceCtorEq] at h
  case key name q =>
    cases h
    refine ⟨rfl, ?_, (Members.get? c.membersOf name).getD .null, ?_⟩
    case refine_1 => simp [Json.put, steps, Members.contains, Members.get?_insert_self]
    case refine_2 => simp [Json.put, Json.child?, Members.get?_insert_self]
  case index i q =>
    split at h <;> cases h
    case isFalse hi =>
      have hn : i.toNat < c.itemsOf.length + (i.toNat + 1 - c.itemsOf.length) := by omega
      have hr {len : Nat} (h : i.toNat < len) : resolveIndex i len = some i.toNat := by
        have h := resolveIndex_ofNat h
        rwa [Int.toNat_of_nonneg (by omega)] at h
      let items := c.itemsOf ++ List.replicate (i.toNat + 1 - c.itemsOf.length) Json.null
      refine ⟨rfl, ?_, items[i.toNat]?.getD .null, by simp [Json.put, Json.child?, hn, items]⟩
      rw [Json.put, steps, hr (by simpa using hn)]
      rfl

end Segment

namespace View

variable {u w x : View} {ws : List View} {s : Segment} {p rest : Path} {c d : Json} {t : Step}

theorem follow_eq_singleton (h : s.isConcrete = true) (ho : u.origin = none)
    (hs : s.steps u.node = [t]) (hc : u.node.child? t = some c) :
    u.follow s = [⟨u.location ++ [t], c, none⟩] := by
  rw [follow_of_not_slice (Segment.isSlice_of_isConcrete h), value_of_origin_eq_none ho, hs]
  simp [child?, source_of_origin_eq_none ho, hc]

theorem eq_of_follow (h : s.isConcrete = true) (ho : u.origin = none) (hf : u.follow s = w :: ws) :
    ∃ t c, s.steps u.node = [t] ∧ u.node.child? t = some c ∧ w = ⟨u.location ++ [t], c, none⟩ := by
  have hf' := hf
  rw [follow_of_not_slice (Segment.isSlice_of_isConcrete h), value_of_origin_eq_none ho] at hf'
  have hlen := Segment.length_steps_of_isConcrete h u.node
  rcases hs : s.steps u.node with _ | ⟨t, _ | ⟨t', ts⟩⟩
  case nil       => simp [hs] at hf'
  case cons.cons => simp [hs] at hlen
  case cons.nil  =>
    have hw : w ∈ u.follow s := by simp [hf]
    have hm : u.child? t = some w := by
      cases hc : u.child? t <;> simp_all
    obtain ⟨c, hc, e⟩ := child?_eq_some_iff.mp hm
    rw [source_of_origin_eq_none ho] at hc e
    exact ⟨t, c, rfl, hc, e⟩

-- Where a path of keys and indices can be followed to, the value can be exchanged, and the path
-- leads there as before.
theorem deepest_alter? (h : p.isConcrete = true) (ho : u.origin = none)
    (hd : u.deepest p = (w, rest)) : w.origin = none ∧ rest <:+ p ∧
    ∃ m, w.location = u.location ++ m ∧ u.node.at? m = some w.node ∧
      ∀ c, ∃ d, u.node.alter? m (fun _ => some c) = some d ∧
        (View.mk u.location d none).deepest p = (View.mk w.location c none).deepest rest := by
  induction p generalizing u with
  | nil =>
    cases hd
    exact ⟨ho, List.suffix_rfl, [], by simp, rfl, fun c => ⟨c, rfl, rfl⟩⟩
  | cons s p ih =>
    simp only [Path.isConcrete, List.all_cons, Bool.and_eq_true] at h
    rw [deepest] at hd
    split at hd
    case _ x ws hf =>
      obtain ⟨t, c, hs, hc, e⟩ := eq_of_follow h.1 ho hf
      subst e
      obtain ⟨how, hsuf, m, hl, hm, ha⟩ := ih h.2 rfl hd
      refine ⟨how, hsuf.trans (List.suffix_cons s p), t :: m, by simp [hl], ?_, fun e => ?_⟩
      case refine_1 => simp [Json.at?_cons, hc, hm]
      case refine_2 =>
        obtain ⟨d, hd, hdeep⟩ := ha e
        refine ⟨u.node.setChild t d, ?_, ?_⟩
        case refine_1 => simp [Json.alter?_cons, Json.alterChild?_eq, hc, hd]
        case refine_2 =>
          have hs' : s.steps (u.node.setChild t d) = [t] := by
            rw [Segment.steps_setChild h.1 hc, hs]
          rw [deepest, follow_eq_singleton h.1 rfl hs' (Json.child?_setChild hc d)]
          exact hdeep
    case _ hf =>
      cases hd
      exact ⟨ho, List.suffix_rfl, [], by simp, rfl, fun c => ⟨c, rfl, rfl⟩⟩

theorem value_of_deepest (h : p.isConcrete = true) (hd : (root c).deepest p = (w, rest)) :
    w.value = w.node :=
  value_of_origin_eq_none (deepest_alter? h rfl hd).1

theorem at?_of_deepest (h : p.isConcrete = true) (hd : (root c).deepest p = (w, rest)) :
    c.at? w.location = some w.node := by
  obtain ⟨_, _, m, hl, hm, _⟩ := deepest_alter? h rfl hd
  rw [hl]
  exact hm

theorem exists_alter?_of_deepest (h : p.isConcrete = true) (hd : (root c).deepest p = (w, rest))
    (d : Json) : ∃ e, c.alter? w.location (fun _ => some d) = some e ∧
      (root e).deepest p = (View.mk w.location d none).deepest rest := by
  obtain ⟨_, _, m, hl, _, ha⟩ := deepest_alter? h rfl hd
  have e : m = w.location := by simp [hl, root]
  subst e
  exact ha d

theorem follow_of_deepest (hd : u.deepest p = (w, s :: rest)) : w.follow s = [] := by
  induction p generalizing u with
  | nil => cases hd
  | cons t p ih =>
    rw [deepest] at hd
    split at hd
    case _ => exact ih hd
    case _ hf =>
      cases hd
      exact hf

theorem deepest_append (u : View) (p q : Path) : u.deepest (p ++ q) =
    match u.deepest p with
    | (w, [])        => w.deepest q
    | (w, s :: rest) => (w, s :: rest ++ q) := by
  induction p generalizing u with
  | nil => rfl
  | cons s p ih =>
    rw [List.cons_append, deepest, deepest]
    split
    case _ => exact ih _
    case _ => rfl

-- The locations of the document that are written when a path can be followed to this view.
def newLocations (w : View) : Path → List Location
  | []  => [w.location]
  | [s] => (s.newStep? w.node).toList.map fun t => w.location ++ [t]
  | _   => []

theorem steps_eq_nil_of_follow (h : s.isConcrete = true) (ho : u.origin = none)
    (hf : u.follow s = []) : s.steps u.node = [] := by
  rw [follow_of_not_slice (Segment.isSlice_of_isConcrete h), value_of_origin_eq_none ho] at hf
  refine List.eq_nil_iff_forall_not_mem.mpr fun t ht => ?_
  have hc := Segment.child?_isSome_of_mem_steps
    (fun sl _ e => by simp [e, Segment.isConcrete] at h) ht
  obtain ⟨c, hc⟩ := Option.isSome_iff_exists.mp hc
  have hn := List.filterMap_eq_nil_iff.mp hf t ht
  simp [child?, source_of_origin_eq_none ho, hc] at hn

end View

namespace Path

variable {limit : Nat} {v : Json} {p rest : Path} {w : View}

theorem targets_absent_of_deepest (h : p.isConcrete = true)
    (hd : (View.root v).deepest p = (w, rest)) (hl : p.length ≤ limit) :
    targets limit true v p = .ok (w.newLocations rest) := by
  cases List.eq_nil_or_concat' p
  case inl hp =>
    subst hp
    cases hd
    exact targets_nil
  case inr hp =>
    obtain ⟨q, s, rfl⟩ := hp
    obtain ⟨hq, hs⟩ : isConcrete q = true ∧ s.isConcrete = true := by simpa [isConcrete] using h
    rw [targets_snoc hl, View.expand_of_isConcrete hq]
    rw [View.deepest_append] at hd
    rcases hdq : (View.root v).deepest q with ⟨x, _ | ⟨t, ts⟩⟩
    all_goals rw [hdq] at hd
    case cons =>
      cases hd
      cases ts <;> rfl
    case nil =>
      have ho : x.origin = none := (View.deepest_alter? hq rfl hdq).1
      have hv : x.value = x.node := View.value_of_origin_eq_none ho
      simp only [View.deepest] at hd
      simp only [List.flatMap_singleton, View.locations, hv]
      split at hd
      case _ y ys hf =>
        cases hd
        obtain ⟨t, c, hst, hc, e⟩ := View.eq_of_follow hs ho hf
        simp [hst, e, View.newLocations, View.source_of_origin_eq_none ho]
      case _ hf =>
        cases hd
        rw [View.steps_eq_nil_of_follow hs ho hf]
        simp [View.newLocations, View.source_of_origin_eq_none ho]

end Path

namespace Json

-- A new value in the place of one that was put there.
theorem alter?_put (c : Json) (steps : Location) (x y : Json) :
    (c.put steps x).alter? steps (fun _ => some y) = some (c.put steps y) := by
  induction steps generalizing c with
  | nil => rfl
  | cons t steps ih =>
    cases t with
    | key name =>
      simp [put, alter?_cons, alterChild?, Members.get?_insert_self, Members.insert_insert, ih]
    | index i =>
      have hi : i < c.itemsOf.length + (i + 1 - c.itemsOf.length) := by omega
      simp [put, alter?_cons, alterChild?, ih, hi]

end Json

namespace Path

variable {c x : Json} {rest : Path} {s : Segment} {steps : Location} {place l : Location}

theorem newSteps_cons_eq_ok (h : newSteps place (s :: rest) = .ok steps) :
    ∃ t ts, steps = t :: ts ∧ s.freshStep? = some t ∧ newSteps place rest = .ok ts := by
  rw [newSteps, List.mapM_cons, ← newSteps] at h
  cases hr : newSteps place rest with
  | error e =>
    cases s <;> simp only [hr, bind, Except.bind, reduceCtorEq] at h
    case index i q => split at h <;> simp_all
  | ok ts =>
    cases s <;> simp only [hr, bind, Except.bind, pure, Except.pure, reduceCtorEq] at h
    case key name q => exact ⟨_, ts, (Except.ok.inj h).symm, rfl, rfl⟩
    case index i q =>
      by_cases hi : i < 0
      case pos => simp [hi] at h
      case neg =>
        simp only [hi, if_false] at h
        exact ⟨_, ts, (Except.ok.inj h).symm, by simp [Segment.freshStep?, hi], rfl⟩

-- A path leads to the value that was put at its steps.
theorem deepest_put (h : newSteps place rest = .ok steps) (l : Location) (c x : Json) :
    (View.mk l (c.put steps x) none).deepest rest = (⟨l ++ steps, x, none⟩, []) := by
  induction rest generalizing steps l c with
  | nil =>
    cases h
    simp [View.deepest, Json.put]
  | cons s rest ih =>
    obtain ⟨t, ts, e, ht, hr⟩ := newSteps_cons_eq_ok h
    subst e
    obtain ⟨hs, hput, d, hc⟩ := Segment.steps_put ht c x ts
    rw [View.deepest, View.follow_eq_singleton hs rfl hput hc]
    simpa using ih hr (l ++ [t]) d

end Path

end JsonQuery
