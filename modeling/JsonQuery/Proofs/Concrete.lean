import JsonQuery.Proofs.Targets

namespace JsonQuery

namespace Segment

variable {s : Segment}

theorem isSlice_of_isConcrete (h : s.isConcrete = true) : s.isSlice = false := by
  cases s <;> first | rfl | cases h

theorem fits_of_isConcrete (h : s.isConcrete = true) : s.fits = true := by
  cases s <;> first | rfl | cases h

-- A key or an index names one child at most.
theorem length_steps_of_isConcrete (h : s.isConcrete = true) (c : Json) : (s.steps c).length ≤ 1 := by
  cases s <;> simp only [isConcrete, Bool.false_eq_true] at h
  case key name _ =>
    cases c <;> simp only [steps, List.length_nil, Nat.zero_le]
    split <;> simp
  case index i _ =>
    cases c <;> simp only [steps, List.length_nil, Nat.zero_le]
    case arr items => cases resolveIndex i items.length <;> simp

end Segment

namespace View

variable {u w : View} {s : Segment} {p : Path} {l : Location}

theorem length_follow_of_isConcrete (h : s.isConcrete = true) (u : View) :
    (u.follow s).length ≤ 1 := by
  rw [follow_of_not_slice (Segment.isSlice_of_isConcrete h)]
  exact Nat.le_trans (List.length_filterMap_le ..) (Segment.length_steps_of_isConcrete h _)

theorem staysWithin_of_isConcrete (h : p.isConcrete = true) (u : View) : u.staysWithin p = true :=
  staysWithin_of_not_slice (fun s hs => Segment.isSlice_of_isConcrete (List.all_eq_true.mp h s hs)) u

-- A path of keys and indices leads to what is at its end if it can be followed that far.
theorem expand_of_isConcrete (h : p.isConcrete = true) (u : View) : u.expand p =
    match u.deepest p with
    | (w, [])     => [w]
    | (_, _ :: _) => [] := by
  induction p generalizing u with
  | nil => rfl
  | cons s rest ih =>
    simp only [Path.isConcrete, List.all_cons, Bool.and_eq_true] at h
    have hlen := length_follow_of_isConcrete h.1 u
    rw [expand, deepest]
    rcases hf : u.follow s with _ | ⟨w, _ | ⟨x, ws⟩⟩
    case nil       => rfl
    case cons.nil  => simpa using ih h.2 w
    case cons.cons => simp [hf] at hlen

theorem resolve_eq_ok_iff : u.resolve p = .ok l ↔ ∃ w, u.deepest p = (w, []) ∧ w.location = l := by
  simp only [resolve]
  split <;> simp_all

end View

namespace Path

variable {v : Json} {p : Path} {limit : Nat}

theorem spread_of_isConcrete (h : p.isConcrete = true) : p.spread = p :=
  spread_eq_self fun s hs =>
    Segment.isSlice_of_isConcrete (List.all_eq_true.mp h s (List.mem_of_getLast? hs))

theorem fits_of_isConcrete (h : p.isConcrete = true) : ∀ s ∈ p, s.fits = true :=
  fun s hs => s.fits_of_isConcrete (List.all_eq_true.mp h s hs)

theorem isAddressable_of_isConcrete (h : p.isConcrete = true) : ∀ s ∈ p, s.isAddressable = true :=
  fun s hs => s.isAddressable_of_isConcrete (List.all_eq_true.mp h s hs)

-- The one location of a path of keys and indices is the one that it resolves to.
theorem targets_of_isConcrete (hv : v.WellFormed) (h : p.isConcrete = true) (hd : p.length ≤ limit) :
    targets limit false v p = .ok ((View.root v).resolve p).toOption.toList := by
  rw [targets_eq_expand hv (fits_of_isConcrete h) (View.staysWithin_of_isConcrete h _) hd,
    spread_of_isConcrete h, View.expand_of_isConcrete h, View.resolve]
  split <;> simp_all [Except.toOption]

end Path

end JsonQuery
