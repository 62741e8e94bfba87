import JsonQuery.Path.Slice

namespace JsonQuery

-- Whether a number is a signed 64 bit integer.
def isWord (n : Int) : Bool := -0x8000000000000000 ≤ n && n < 0x8000000000000000

namespace Slice

-- Whether all numbers of a slice are signed 64 bit integers.
def fits (s : Slice) : Bool := s.start.all isWord && s.stop.all isWord && s.step.all isWord

theorem isWord_iff {n : Int} :
    isWord n = true ↔ -0x8000000000000000 ≤ n ∧ n < 0x8000000000000000 := by
  simp [isWord]

theorem wrap_bounds (n : Int) : -0x8000000000000000 ≤ wrap n ∧ wrap n < 0x8000000000000000 := by
  simp only [wrap]
  omega

theorem wrap_of_isWord {n : Int} (h : isWord n = true) : wrap n = n := by
  have h := isWord_iff.mp h
  simp only [wrap]
  omega

-- A sum that leaves the range upwards comes back in below.
theorem wrap_add {i n : Int} (hi : isWord i = true) (hn : isWord n = true) (h : 0 < n) :
    wrap (i + n) = i + n ∨ wrap (i + n) < 0 := by
  have hi := isWord_iff.mp hi
  have hn := isWord_iff.mp hn
  simp only [wrap]
  omega

variable {s : Slice} {len fuel : Nat} {limit stride i j : Int}

theorem stride_isWord (h : s.fits = true) : isWord s.stride = true := by
  obtain ⟨_, h⟩ := Bool.and_eq_true_iff.mp h
  cases hs : s.step with
  | none => simp [stride, hs, isWord]
  | some n => simpa [stride, hs] using h

theorem highest_lt (s : Slice) (len : Nat) : s.highest len < 0x8000000000000000 := by
  simp only [highest]
  split
  case isTrue  => exact (wrap_bounds _).2
  case isFalse => exact (wrap_bounds _).2

theorem lowest_bounds (s : Slice) : -1 ≤ s.lowest ∧ s.lowest ≤ 0 := by
  simp only [lowest]
  split <;> omega

theorem clamp_lt (n : Int) : s.clamp len n < 0x8000000000000000 := by
  have := s.highest_lt len
  have := s.lowest_bounds
  have := wrap_bounds (n + wrap len)
  simp only [clamp]
  split <;> omega

theorem clamp_isWord (n : Int) : isWord (s.clamp len n) = true := by
  have : s.clamp len n < 0x8000000000000000 := clamp_lt n
  have := s.lowest_bounds
  have := wrap_bounds (len : Int)
  have := wrap_bounds (wrap len - 1)
  rw [isWord_iff]
  simp only [clamp, highest] at *
  split <;> split at * <;> omega

theorem first_isWord : isWord (s.first len) = true := by
  have := s.lowest_bounds
  have := wrap_bounds (len : Int)
  have := wrap_bounds (wrap len - 1)
  simp only [first]
  split
  case _ => exact clamp_isWord _
  case _ =>
    rw [isWord_iff]
    simp only [highest]
    split <;> omega

-- Where a walk up has to stop, and where a walk down begins and has to stop.
theorem clamp_bounds (s : Slice) {n : Int} (hl : len < 0x8000000000000000)
    (hn : isWord n = true) :
    (0 < s.stride → 0 ≤ s.clamp len n ∧ s.clamp len n ≤ len) ∧
      (s.stride < 0 → -1 ≤ s.clamp len n ∧ s.clamp len n < len) := by
  have hn := isWord_iff.mp hn
  have hw : wrap len = len := wrap_of_isWord (isWord_iff.mpr (by omega))
  have hw' : wrap ((len : Int) - 1) = len - 1 := wrap_of_isWord (isWord_iff.mpr (by omega))
  constructor
  case left =>
    intro hs
    simp only [clamp, highest, lowest, hs, if_true, hw]
    split
    case isTrue h =>
      rw [wrap_of_isWord (isWord_iff.mpr (by omega))]
      omega
    case isFalse => omega
  case right =>
    intro hs
    have hs : ¬ 0 < s.stride := by omega
    simp only [clamp, highest, lowest, hs, if_false, hw, hw']
    split
    case isTrue h =>
      rw [wrap_of_isWord (isWord_iff.mpr (by omega))]
      omega
    case isFalse => omega

theorem limit_bounds (hf : s.fits = true) (hl : len < 0x8000000000000000) :
    (0 < s.stride → 0 ≤ s.limit len ∧ s.limit len ≤ len) ∧
      (s.stride < 0 → -1 ≤ s.limit len) := by
  have hw : wrap len = len := wrap_of_isWord (isWord_iff.mpr (by omega))
  simp only [fits, Bool.and_eq_true] at hf
  simp only [limit]
  cases hs : s.stop with
  | none =>
    simp only [highest, lowest, hw]
    constructor
    case left => simp +contextual
    case right =>
      intro h
      have h : ¬ 0 < s.stride := by omega
      simp [h]
  | some n =>
    obtain ⟨hup, hdown⟩ := s.clamp_bounds hl (by simpa [hs] using hf.1.2 : isWord n = true)
    exact ⟨hup, fun h => (hdown h).1⟩

theorem first_lt (hf : s.fits = true) (hl : len < 0x8000000000000000) (h : s.stride < 0) :
    s.first len < len := by
  have hw : wrap len = len := wrap_of_isWord (isWord_iff.mpr (by omega))
  have hw' : wrap ((len : Int) - 1) = len - 1 := wrap_of_isWord (isWord_iff.mpr (by omega))
  have h' : ¬ 0 < s.stride := by omega
  simp only [fits, Bool.and_eq_true] at hf
  simp only [first]
  cases hs : s.start with
  | none =>
    simp only [highest, h', if_false, hw, hw']
    omega
  | some n =>
    obtain ⟨_, hdown⟩ := s.clamp_bounds hl (by simpa [hs] using hf.1.1 : isWord n = true)
    exact (hdown h).2

theorem first_nonneg (hf : s.fits = true) (hl : len < 0x8000000000000000) (h : 0 < s.stride) :
    0 ≤ s.first len := by
  simp only [fits, Bool.and_eq_true] at hf
  simp only [first]
  cases hs : s.start with
  | none => simp [lowest, h]
  | some n =>
    obtain ⟨hup, _⟩ := s.clamp_bounds hl (by simpa [hs] using hf.1.1 : isWord n = true)
    exact (hup h).1

theorem mem_walk (hi : isWord i = true) (h : j ∈ walk limit stride fuel i) :
    isWord j = true ∧ ((0 < stride ∧ j < limit) ∨ (stride < 0 ∧ limit < j)) := by
  induction fuel generalizing i with
  | zero => simp [walk] at h
  | succ fuel ih =>
    simp only [walk] at h
    split at h
    case isTrue hc =>
      cases List.mem_cons.mp h
      case inl h => exact h ▸ ⟨hi, hc⟩
      case inr h => exact ih (isWord_iff.mpr (wrap_bounds _)) h
    case isFalse => simp at h

-- A walk down does not go around.
theorem walk_down (hs : stride < 0) (hw : isWord stride = true) (hl : -1 ≤ limit)
    (hi : isWord i = true) :
    (walk limit stride fuel i).Pairwise (· > ·) ∧ ∀ j ∈ walk limit stride fuel i, j ≤ i := by
  induction fuel generalizing i with
  | zero => simp [walk]
  | succ fuel ih =>
    simp only [walk]
    split
    case isTrue hc =>
      have hw := isWord_iff.mp hw
      have hi := isWord_iff.mp hi
      have hn : isWord (i + stride) = true := isWord_iff.mpr (by omega)
      obtain ⟨hp, hle⟩ := ih hn
      rw [wrap_of_isWord hn]
      have hlt : ∀ j ∈ walk limit stride fuel (i + stride), j < i := fun j hj => by
        have := hle j hj
        omega
      refine ⟨List.pairwise_cons.mpr ⟨hlt, hp⟩, ?_⟩
      intro j hj
      cases List.mem_cons.mp hj
      case inl h => omega
      case inr h => exact Int.le_of_lt (hlt j h)
    case isFalse => simp

-- A walk up goes on upwards as long as it does not go around, which brings in a negative index.
theorem walk_up (hs : 0 < stride) (hw : isWord stride = true) (hi : isWord i = true)
    (hl : 0 ≤ limit) (h : ∀ j ∈ walk limit stride fuel i, 0 ≤ j) :
    (walk limit stride fuel i).Pairwise (· < ·) ∧ ∀ j ∈ walk limit stride fuel i, i ≤ j := by
  induction fuel generalizing i with
  | zero => simp [walk]
  | succ fuel ih =>
    simp only [walk] at h ⊢
    split
    case isTrue hc =>
      simp only [hc, if_true] at h
      have hr := fun j hj => h j (List.mem_cons_of_mem _ hj)
      obtain ⟨hp, hle⟩ := ih (isWord_iff.mpr (wrap_bounds _)) hr
      have hlt : ∀ j ∈ walk limit stride fuel (wrap (i + stride)), i < j := by
        intro j hj
        have hij := hle j hj
        cases wrap_add hi hw hs
        case inl he => omega
        case inr hneg =>
          cases fuel with
          | zero => simp [walk] at hj
          | succ fuel =>
            have : 0 ≤ wrap (i + stride) := hr _ (by
              have : 0 < stride ∧ wrap (i + stride) < limit := ⟨hs, by omega⟩
              simp [walk, this])
            omega
      refine ⟨List.pairwise_cons.mpr ⟨hlt, hp⟩, ?_⟩
      intro j hj
      cases List.mem_cons.mp hj
      case inl h => omega
      case inr h => exact Int.le_of_lt (hlt j h)
    case isFalse => simp

-- A walk up does not go around where there is room for one more step.
theorem walk_nonneg (hs : 0 < stride) (hr : limit + stride ≤ 0x8000000000000000) (hi : 0 ≤ i) :
    ∀ j ∈ walk limit stride fuel i, 0 ≤ j := by
  induction fuel generalizing i with
  | zero => simp [walk]
  | succ fuel ih =>
    simp only [walk]
    split
    case isTrue hc =>
      have hn : wrap (i + stride) = i + stride := wrap_of_isWord (isWord_iff.mpr (by omega))
      rw [hn]
      exact List.forall_mem_cons.mpr ⟨hi, ih (by omega)⟩
    case isFalse => simp

theorem mem_indices_iff {i : Nat} :
    i ∈ s.indices len ↔
      ¬ (s.stride = 0 ∨ len = 0) ∧
        ∃ j ∈ walk (s.limit len) s.stride (2 * len + 2) (s.first len),
          (j % 0x10000000000000000).toNat = i := by
  simp only [indices]
  split <;> simp [*]

-- An index of a slice is one of the array, or too large for any array.
theorem lt_or_le_of_mem_indices {i : Nat} (hf : s.fits = true) (h : i ∈ s.indices len) :
    i < len ∨ 0x8000000000000000 ≤ i := by
  obtain ⟨h0, j, hj, hji⟩ := mem_indices_iff.mp h
  obtain ⟨hs, h0⟩ := not_or.mp h0
  obtain ⟨hjw, hlim⟩ := mem_walk first_isWord hj
  have hjw := isWord_iff.mp hjw
  by_cases hl : len < 0x8000000000000000
  case neg => omega
  case pos =>
    obtain ⟨hup, hdown⟩ := limit_bounds hf hl
    have hfirst := first_lt hf hl
    cases hlim
    case inl hc => have := hup hc.1; omega
    case inr hc =>
      obtain ⟨hneg, _⟩ := hc
      have := (walk_down hneg (stride_isWord hf) (hdown hneg) first_isWord).2 j hj
      have := hfirst hneg
      omega

-- It takes a step up that goes around to lead out of an array.
theorem lt_of_mem_indices {i : Nat} (hf : s.fits = true) (hl : len < 0x8000000000000000)
    (hr : len + s.stride ≤ 0x8000000000000000) (h : i ∈ s.indices len) : i < len := by
  obtain ⟨_, j, hj, hji⟩ := mem_indices_iff.mp h
  obtain ⟨hjw, hlim⟩ := mem_walk first_isWord hj
  obtain ⟨hup, hdown⟩ := limit_bounds hf hl
  have hj : 0 ≤ j := by
    cases hlim
    case inl hc =>
      have := hup hc.1
      exact walk_nonneg hc.1 (by omega) (first_nonneg hf hl hc.1) j hj
    case inr hc =>
      have := hdown hc.1
      omega
  have := isWord_iff.mp hjw
  have := lt_or_le_of_mem_indices hf h
  omega

-- A slice that stays within its array takes no element twice.
theorem nodup_indices (hf : s.fits = true) (hl : len < 0x8000000000000000)
    (h : ∀ i ∈ s.indices len, i < len) : (s.indices len).Nodup := by
  by_cases h0 : s.stride = 0 ∨ len = 0
  case pos => simp [indices, h0]
  case neg =>
    obtain ⟨hup, hdown⟩ := limit_bounds hf hl
    have hpos : ∀ j ∈ walk (s.limit len) s.stride (2 * len + 2) (s.first len), 0 ≤ j := by
      intro j hj
      have := h _ (mem_indices_iff.mpr ⟨h0, j, hj, rfl⟩)
      have := isWord_iff.mp (mem_walk first_isWord hj).1
      omega
    simp only [indices, h0, if_false, List.Nodup, List.pairwise_map]
    have hp : (walk (s.limit len) s.stride (2 * len + 2) (s.first len)).Pairwise (· ≠ ·) := by
      by_cases hs : 0 < s.stride
      case pos =>
        exact (walk_up hs (stride_isWord hf) first_isWord (hup hs).1 hpos).1.imp Int.ne_of_lt
      case neg =>
        have hneg : s.stride < 0 := by omega
        exact (walk_down hneg (stride_isWord hf) (hdown hneg) first_isWord).1.imp Int.ne_of_gt
    refine hp.imp_of_mem fun {a b} ha hb hab he => ?_
    have := isWord_iff.mp (mem_walk first_isWord ha).1
    have := isWord_iff.mp (mem_walk first_isWord hb).1
    omega

end Slice

end JsonQuery
