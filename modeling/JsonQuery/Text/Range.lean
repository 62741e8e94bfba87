namespace JsonQuery.Text

-- A class of characters is written as the ascending list of its ranges of code points, both ends
-- included. The search stops at the first range that starts beyond the code point.
def covers : List (Nat × Nat) → Nat → Bool
  | [], _ => false
  | (first, last) :: rest, n => if n < first then false else n ≤ last || covers rest n

theorem exists_of_covers {ranges : List (Nat × Nat)} {n : Nat} (h : covers ranges n = true) :
    ∃ r ∈ ranges, r.1 ≤ n ∧ n ≤ r.2 := by
  induction ranges with
  | nil => simp [covers] at h
  | cons r rest ih =>
    obtain ⟨first, last⟩ := r
    by_cases hf : n < first
    · simp [covers, hf] at h
    · simp only [covers, hf, ↓reduceIte, Bool.or_eq_true, decide_eq_true_eq] at h
      rcases h with h | h
      · exact ⟨(first, last), by simp, by omega, h⟩
      · obtain ⟨r, hr, hn⟩ := ih h
        exact ⟨r, List.mem_cons_of_mem _ hr, hn⟩

end JsonQuery.Text
