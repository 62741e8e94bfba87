import JsonQuery.Proofs.Calls
import JsonQuery.Proofs.Views
import JsonQuery.Read.Evaluate

namespace JsonQuery

namespace View

-- Whether an optional index at the end of a path leads nowhere.
def misses (u : View) (s : Segment) (last : Bool) : Bool :=
  match s with
  | .index _ true => last && (u.follow s).isEmpty
  | _             => false

-- The results of a read that is not strict.
def found (u : View) : Path → List Match
  | []        => [⟨u.location, u.value⟩]
  | s :: rest =>
    if u.misses s rest.isEmpty then [⟨u.location, .null⟩]
    else (u.follow s).flatMap (·.found rest)

variable {u : View} {s : Segment} {last : Bool}

theorem misses_eq_true_iff : u.misses s last = true ↔
    (∃ i, s = .index i true) ∧ last = true ∧ u.follow s = [] := by
  cases s <;> simp [misses]
  case index i q => cases q <;> simp

theorem staysWithin_of_misses (h : u.misses s last = true) (p : Path) :
    u.staysWithin (s :: p) = true := by
  obtain ⟨⟨i, e⟩, _, hf⟩ := misses_eq_true_iff.mp h
  subst e
  simp [staysWithin_cons, hf, stray?]

theorem stray?_eq_some {e : Error} (h : u.stray? s = some e) : ∃ i n, e = .outOfBounds i n := by
  simp only [stray?] at h
  split at h
  case _ sl items _ =>
    obtain ⟨i, _, e⟩ := Option.map_eq_some_iff.mp h
    exact ⟨i, items.length, e.symm⟩
  case _ => cases h

end View

namespace Frame

variable {o : Options} {p : Path} {s : Segment} {u : View} {limit depth : Nat} {last : Bool}

theorem stage_of_isAddressable (h : s.isAddressable = true) : s.stage o = s.locate o := by
  cases s <;> first | rfl | cases h

theorem locate_of_misses (h : u.misses s last = true) :
    s.locate o last depth u = .ok (.found ⟨u.location, .null⟩) := by
  obtain ⟨⟨i, e⟩, hl, hf⟩ := View.misses_eq_true_iff.mp h
  subst e
  simp [Segment.locate, hl, hf]

theorem locate_of_not_misses (h : u.misses s last = false) : s.locate o last depth u =
    match (u.stray? s).or (if o.strict && !s.isOptional then u.obstacle? s else none) with
    | some e => .error e
    | none   => .ok (.onward (u.follow s)) := by
  unfold Segment.locate
  split
  case _ hf => simp [View.misses, hf] at h
  case _ => rfl

theorem locate_eq (ho : o.strict = false) : s.locate o last depth u =
    if u.misses s last then .ok (.found ⟨u.location, .null⟩)
    else
      match u.stray? s with
      | some e => .error e
      | none   => .ok (.onward (u.follow s)) := by
  cases h : u.misses s last
  case true  => exact locate_of_misses h
  case false =>
    rw [locate_of_not_misses h, ho]
    simp

theorem runOf_cons (ho : o.strict = false) (ha : s.isAddressable = true) (hd : depth ≤ limit) :
    runOf limit (Path.stages o (s :: p)) depth u =
      if u.misses s p.isEmpty then .one ⟨u.location, .null⟩
      else
        match u.stray? s with
        | some e => .fail e
        | none   => .inTurn (runOf limit (Path.stages o p) (deeper depth)) (u.follow s) := by
  have hl : (Path.stages o p).isEmpty = p.isEmpty := by cases p <;> rfl
  rw [Path.stages, runOf, if_neg (Nat.not_lt.mpr hd), stage_of_isAddressable ha, locate_eq ho, hl]
  cases u.misses s p.isEmpty
  case true => rfl
  case false => cases u.stray? s <;> rfl

-- A read within the depth limit fails only where a slice leads out of its array.
theorem runOf_of_staysWithin (ho : o.strict = false) (ha : ∀ s ∈ p, s.isAddressable = true)
    (hd : depth + p.length ≤ limit) (hs : u.staysWithin p = true) :
    runOf limit (Path.stages o p) depth u = ⟨u.found p, none⟩ := by
  induction p generalizing u depth with
  | nil => exact if_neg (Nat.not_lt.mpr hd)
  | cons s rest ih =>
    obtain ⟨ha, har⟩ := List.forall_mem_cons.mp ha
    obtain ⟨hs, hr⟩ := View.staysWithin_cons.mp hs
    have hd : deeper depth + rest.length ≤ limit := by
      have := deeper_le depth
      rw [List.length_cons] at hd
      omega
    have hg := Run.inTurn_eq_found fun w hw => ih har hd (hr w hw)
    rw [runOf_cons ho ha (by omega), hs, hg, View.found]
    split <;> rfl

theorem error?_runOf (ho : o.strict = false) (ha : ∀ s ∈ p, s.isAddressable = true)
    (hd : depth + p.length ≤ limit) (hs : u.staysWithin p = false) :
    ∃ i n, (runOf limit (Path.stages o p) depth u).error? = some (.outOfBounds i n) := by
  induction p generalizing u depth with
  | nil => cases hs
  | cons s rest ih =>
    obtain ⟨ha, har⟩ := List.forall_mem_cons.mp ha
    have hd : deeper depth + rest.length ≤ limit := by
      have := deeper_le depth
      rw [List.length_cons] at hd
      omega
    have hm : u.misses s rest.isEmpty = false := by
      cases hm : u.misses s rest.isEmpty
      case false => rfl
      case true => simp [View.staysWithin_of_misses hm] at hs
    rw [runOf_cons ho ha (by omega), hm]
    cases he : u.stray? s with
    | some e =>
      obtain ⟨i, n, e⟩ := View.stray?_eq_some he
      exact ⟨i, n, congrArg some e⟩
    | none =>
      obtain ⟨w, hw, hs⟩ : ∃ w ∈ u.follow s, w.staysWithin rest = false := by
        simpa [View.staysWithin, he] using hs
      obtain ⟨i, n, he⟩ := ih har hd hs
      have hf : (Run.inTurn (runOf limit (Path.stages o rest) (deeper depth)) (u.follow s)).error? ≠
          none := fun hn => by simp [Run.error?_inTurn_eq_none.mp hn w hw] at he
      -- The first view that fails need not be the one that is known to leave its array.
      obtain ⟨e, hf⟩ := Option.ne_none_iff_exists'.mp hf
      obtain ⟨y, hy, he⟩ := Run.error?_inTurn_eq_some hf
      cases hs : y.staysWithin rest
      case true => simp [runOf_of_staysWithin ho har hd hs] at he
      case false =>
        obtain ⟨i, n, he'⟩ := ih har hd hs
        exact ⟨i, n, hf.trans (he.symm.trans he')⟩

end Frame

end JsonQuery
