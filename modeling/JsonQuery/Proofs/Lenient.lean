import JsonQuery.Proofs.Targets
import JsonQuery.Query

namespace JsonQuery

variable {o : Options} {v : Json} {p : Path}

namespace View

-- Only an optional index at the end of a path stands for nothing.
theorem found_root (h : ∀ i, p.getLast? ≠ some (.index i true)) (v : Json) :
    (View.root v).found p = ((View.root v).expand p).map fun w => ⟨w.location, w.value⟩ := by
  rw [← found_eq_expand, eq_comm, List.filter_eq_self]
  intro m _
  unfold Match.isMiss
  split
  case _ i hi => exact absurd hi (h i)
  case _      => rfl

end View

namespace Query

-- What a read returns that is not strict: the values that the path leads to, unless a slice of it
-- leads out of an array.
theorem get_lenient (hf : o.onlyFirst = false) (hs : o.strict = false)
    (ha : ∀ s ∈ p, s.isAddressable = true) (hd : p.length ≤ o.maxDepth)
    (hl : ∀ i, p.getLast? ≠ some (.index i true)) :
    ((View.root v).staysWithin p = true →
      (Query.mk p o).get v = .ok (((View.root v).expand p).map (·.value))) ∧
    ((View.root v).staysWithin p = false →
      ∃ i n, (Query.mk p o).get v = .error (.outOfBounds i n)) := by
  obtain ⟨hok, herror⟩ := Path.all_lenient (v := v) hf hs ha hd
  refine ⟨fun hw => ?_, fun hw => ?_⟩
  case refine_1 => simp [Query.get, Query.cursor, hok hw, View.found_root hl, Except.map]
  case refine_2 =>
    obtain ⟨i, n, he⟩ := herror hw
    exact ⟨i, n, by simp [Query.get, Query.cursor, he, Except.map]⟩

end Query

end JsonQuery
