import Mathlib.Data.List.Range
import JsonQuery.Proofs.SliceBounds

namespace JsonQuery.Slice

variable {s : Slice} {len fuel n : Nat} {first limit stride i j : Int}

-- Whether an index comes before the limit of a walk in the direction of its stride.
def Before (limit stride i : Int) : Prop :=
  (0 < stride ∧ i < limit) ∨ (stride < 0 ∧ limit < i)

instance : Decidable (Before limit stride i) :=
  inferInstanceAs (Decidable (_ ∨ _))

-- How many terms of the arithmetic progression `first`, `first + stride`, ... come before the
-- limit: the quotient of the distance by the stride, rounded up.
def terms (first limit stride : Int) : Nat :=
  if 0 < stride then (-((first - limit) / stride)).toNat
  else if stride < 0 then (-((limit - first) / -stride)).toNat
  else 0

def termsBefore (first limit stride : Int) : List Int :=
  (List.range (terms first limit stride)).map fun n : Nat => first + n * stride

theorem lt_terms_iff :
    n < terms first limit stride ↔ Before limit stride (first + n * stride) := by
  simp only [terms, Before]
  split
  case isTrue h =>
    have hq := Int.ediv_lt_iff_lt_mul (a := first - limit) (b := -n) h
    rw [Int.neg_mul] at hq
    omega
  case isFalse h =>
    split
    case isTrue h' =>
      have hq := Int.ediv_lt_iff_lt_mul (a := limit - first) (b := -n) (Int.neg_pos_of_neg h')
      rw [Int.neg_mul_neg] at hq
      omega
    case isFalse h' => omega

theorem terms_pos_iff : 0 < terms first limit stride ↔ Before limit stride first := by
  simp [lt_terms_iff]

theorem terms_next : terms (first + stride) limit stride = terms first limit stride - 1 := by
  have h : ∀ n, n < terms (first + stride) limit stride ↔ n + 1 < terms first limit stride := by
    intro n
    rw [lt_terms_iff, lt_terms_iff, Int.natCast_add, Int.add_mul, Int.natCast_one, Int.one_mul,
      Int.add_comm (n * stride), Int.add_assoc]
  have hnext := h (terms first limit stride - 1)
  have hself := h (terms (first + stride) limit stride)
  omega

theorem termsBefore_of_before (h : Before limit stride first) :
    termsBefore first limit stride = first :: termsBefore (first + stride) limit stride := by
  obtain ⟨n, hn⟩ := Nat.exists_eq_add_one.mpr (terms_pos_iff.mpr h)
  rw [termsBefore, termsBefore, terms_next, hn, Nat.add_sub_cancel, List.range_succ_eq_map,
    List.map_cons, List.map_map]
  refine congrArg₂ List.cons (by simp) (List.map_congr_left fun k _ => ?_)
  rw [Function.comp_apply, Nat.succ_eq_add_one, Int.natCast_add, Int.natCast_one, Int.add_mul]
  omega

theorem termsBefore_of_not_before (h : ¬ Before limit stride first) :
    termsBefore first limit stride = [] := by
  have h0 : terms first limit stride = 0 := Nat.eq_zero_of_not_pos (terms_pos_iff.not.mpr h)
  simp [termsBefore, h0]

theorem mem_termsBefore_iff : j ∈ termsBefore first limit stride ↔
    ∃ n : Nat, j = first + n * stride ∧ Before limit stride j := by
  simp only [termsBefore, List.mem_map, List.mem_range, lt_terms_iff]
  constructor
  case mp =>
    rintro ⟨n, h, rfl⟩
    exact ⟨n, rfl, h⟩
  case mpr =>
    rintro ⟨n, rfl, h⟩
    exact ⟨n, h, rfl⟩

-- A walk that ends of its own, and no sum on the way goes around.
inductive Walks (limit stride : Int) : Int → List Int → Prop
  | done {i : Int} (h : ¬ Before limit stride i) : Walks limit stride i []
  | step {i : Int} {is : List Int} (h : Before limit stride i) (hw : isWord (i + stride) = true)
      (rest : Walks limit stride (i + stride) is) : Walks limit stride i (i :: is)

theorem walks_termsBefore
    (hw : ∀ i ∈ termsBefore first limit stride, isWord (i + stride) = true) :
    Walks limit stride first (termsBefore first limit stride) := by
  generalize hn : terms first limit stride = n
  induction n generalizing first with
  | zero =>
    have h : ¬ Before limit stride first := terms_pos_iff.not.mp (by omega)
    exact termsBefore_of_not_before h ▸ .done h
  | succ n ih =>
    have h : Before limit stride first := terms_pos_iff.mp (by omega)
    rw [termsBefore_of_before h] at hw ⊢
    obtain ⟨hf, hr⟩ := List.forall_mem_cons.mp hw
    exact .step h hf (ih hr (by rw [terms_next]; omega))

theorem walk_of_before (h : Before limit stride i) :
    walk limit stride (fuel + 1) i = i :: walk limit stride fuel (wrap (i + stride)) :=
  if_pos h

-- The walk takes the terms of the progression, given that it is not cut off.
theorem Walks.walk_eq {is : List Int} (h : Walks limit stride i is) (hn : is.length ≤ fuel) :
    walk limit stride fuel i = is := by
  induction h generalizing fuel with
  | done h =>
    cases fuel with
    | zero      => rfl
    | succ fuel => exact if_neg h
  | @step i is h hw rest ih =>
    cases fuel with
    | zero      => simp at hn
    | succ fuel => rw [walk_of_before h, wrap_of_isWord hw, ih (by simpa using hn)]

-- Where a sum goes around, the walk goes on at a negative index.
theorem exists_neg_mem_walk (hs : 0 < stride) (hw : isWord stride = true)
    (hi : isWord first = true) (hl : 0 ≤ limit) (hn : terms first limit stride < fuel)
    (h : ∃ i ∈ termsBefore first limit stride, isWord (i + stride) = false) :
    ∃ j ∈ walk limit stride fuel first, j < 0 := by
  induction fuel generalizing first with
  | zero => omega
  | succ fuel ih =>
    obtain ⟨i, hmem, hout⟩ := h
    by_cases hb : Before limit stride first
    case neg => simp [termsBefore_of_not_before hb] at hmem
    case pos =>
      have hpos := terms_pos_iff.mpr hb
      rw [walk_of_before hb]
      cases hnext : isWord (first + stride) with
      | true =>
        rw [termsBefore_of_before hb] at hmem
        have hmem := (List.mem_cons.mp hmem).resolve_left fun e => by simp [e, hnext] at hout
        have hn : terms (first + stride) limit stride < fuel := by
          rw [terms_next]
          omega
        obtain ⟨j, hj, hneg⟩ := ih hnext hn ⟨i, hmem, hout⟩
        exact ⟨j, List.mem_cons_of_mem _ (by rwa [wrap_of_isWord hnext]), hneg⟩
      | false =>
        have hneg : wrap (first + stride) < 0 := (wrap_add hi hw hs).resolve_left fun e => by
          rw [← e, isWord_iff.mpr (wrap_bounds _)] at hnext
          cases hnext
        obtain ⟨fuel, rfl⟩ : ∃ n, fuel = n + 1 := Nat.exists_eq_add_one.mpr (by omega)
        refine ⟨_, List.mem_cons_of_mem _ ?_, hneg⟩
        rw [walk_of_before (.inl ⟨hs, by omega⟩)]
        exact List.mem_cons_self

section

variable (s len)

-- A bound as an index: counted from the end if it is negative, and moved to the nearest end of the
-- array if it is outside.
def position (bound : Int) : Int :=
  let i := if bound < 0 then bound + len else bound
  if 0 < s.stride then max 0 (min i len) else max (-1) (min i (len - 1))

def opening : Int :=
  match s.start with
  | some bound => s.position len bound
  | none       => if 0 < s.stride then 0 else len - 1

def closing : Int :=
  match s.stop with
  | some bound => s.position len bound
  | none       => if 0 < s.stride then len else -1

-- The indices that a slice stands for: every stride from its opening on, up to its closing.
def progression : List Int := termsBefore (s.opening len) (s.closing len) s.stride

-- Whether the index that follows one of these is too large to be computed.
def GoesAround : Prop := ∃ i ∈ s.progression len, isWord (i + s.stride) = false

instance : Decidable (s.GoesAround len) :=
  inferInstanceAs (Decidable (∃ i ∈ s.progression len, _))

end

-- Lengths, and the last indices of arrays that have them, are in the range.
theorem wrap_length (hl : len < 0x8000000000000000) : wrap len = len :=
  wrap_of_isWord (isWord_iff.mpr (by omega))

theorem highest_eq (hl : len < 0x8000000000000000) :
    s.highest len = if 0 < s.stride then (len : Int) else len - 1 := by
  have hlast : wrap ((len : Int) - 1) = len - 1 := wrap_of_isWord (isWord_iff.mpr (by omega))
  rw [highest, wrap_length hl, hlast]

theorem clamp_eq_position (hl : len < 0x8000000000000000) (hn : isWord i = true) :
    s.clamp len i = s.position len i := by
  have hn := isWord_iff.mp hn
  simp only [clamp, position, highest_eq hl, lowest, wrap_length hl]
  split
  case isTrue h =>
    rw [wrap_of_isWord (isWord_iff.mpr (by omega))]
    split <;> omega
  case isFalse => split <;> omega

theorem first_eq_opening (hf : s.fits = true) (hl : len < 0x8000000000000000) :
    s.first len = s.opening len := by
  simp only [fits, Bool.and_eq_true] at hf
  simp only [first, opening]
  cases hs : s.start with
  | some n => exact clamp_eq_position hl (by simpa [hs] using hf.1.1)
  | none   => simp only [highest_eq hl, lowest]; split <;> rfl

theorem limit_eq_closing (hf : s.fits = true) (hl : len < 0x8000000000000000) :
    s.limit len = s.closing len := by
  simp only [fits, Bool.and_eq_true] at hf
  simp only [limit, closing]
  cases hs : s.stop with
  | some n => exact clamp_eq_position hl (by simpa [hs] using hf.1.2)
  | none   => simp only [highest_eq hl, lowest]; split <;> rfl

theorem opening_bounds (s : Slice) (len : Nat) :
    (0 < s.stride → 0 ≤ s.opening len) ∧ (s.stride < 0 → s.opening len < len) := by
  simp only [opening, position]
  split <;> split <;> omega

theorem closing_bounds (s : Slice) (len : Nat) :
    (0 < s.stride → 0 ≤ s.closing len ∧ s.closing len ≤ len) ∧ (s.stride < 0 → -1 ≤ s.closing len) := by
  simp only [closing, position]
  split <;> split <;> omega

-- Every term is the index of an element, whatever the stride.
theorem bounds_of_mem_progression (h : i ∈ s.progression len) : 0 ≤ i ∧ i < len := by
  obtain ⟨n, e, hb⟩ := mem_termsBefore_iff.mp h
  obtain ⟨hup, hdown⟩ := s.opening_bounds len
  obtain ⟨hup', hdown'⟩ := s.closing_bounds len
  rcases hb with ⟨hs, hb⟩ | ⟨hs, hb⟩
  case inl =>
    have := Int.mul_nonneg (Int.natCast_nonneg n) (Int.le_of_lt hs)
    have := hup hs
    have := hup' hs
    omega
  case inr =>
    have := Int.mul_nonpos_of_nonneg_of_nonpos (Int.natCast_nonneg n) (Int.le_of_lt hs)
    have := hdown hs
    have := hdown' hs
    omega

theorem length_progression_le (s : Slice) (len : Nat) : (s.progression len).length ≤ len := by
  rw [progression, termsBefore, List.length_map, List.length_range]
  refine Nat.le_of_not_lt fun h => ?_
  have hm := mem_termsBefore_iff.mpr ⟨len, rfl, lt_terms_iff.mp h⟩
  obtain ⟨hpos, hlt⟩ := bounds_of_mem_progression hm
  obtain ⟨hup, hdown⟩ := s.opening_bounds len
  rcases lt_terms_iff.mp h with ⟨hs, _⟩ | ⟨hs, _⟩
  case inl =>
    have := Int.mul_le_mul_of_nonneg_left hs (Int.natCast_nonneg len)
    have := hup hs
    omega
  case inr =>
    have := Int.mul_le_mul_of_nonneg_left (Int.le_sub_one_of_lt hs) (Int.natCast_nonneg len)
    have := hdown hs
    omega

theorem progression_up (len : Nat) (hs : 0 < s.stride) : (s.progression len).Pairwise (· < ·) := by
  rw [progression, termsBefore, List.pairwise_map]
  refine List.pairwise_lt_range.imp fun {m n} h => ?_
  have := Int.mul_lt_mul_of_pos_right (Int.ofNat_lt.mpr h) hs
  omega

theorem progression_down (len : Nat) (hs : s.stride < 0) : (s.progression len).Pairwise (· > ·) := by
  rw [progression, termsBefore, List.pairwise_map]
  refine List.pairwise_lt_range.imp fun {m n} h => ?_
  have := Int.mul_lt_mul_of_neg_right (Int.ofNat_lt.mpr h) hs
  omega

-- It takes a stride up to go around, and it is longer than what 64 bits leave above the array.
theorem not_goesAround (hf : s.fits = true) (hl : len < 0x8000000000000000)
    (h : s.stride ≤ 0 ∨ len + s.stride ≤ 0x8000000000000000) : ¬ s.GoesAround len := by
  rintro ⟨i, hi, hout⟩
  obtain ⟨hpos, hlt⟩ := bounds_of_mem_progression hi
  have hw := isWord_iff.mp (stride_isWord hf)
  rw [isWord_iff.mpr (by omega)] at hout
  cases hout

-- What it means that a slice is resolved like a progression: no sum on the way goes around, the
-- walk ends, and the indices are the terms, which are in the array and in order.
structure Exact (s : Slice) (len : Nat) : Prop where
  bounds   : ∀ n, s.start = some n ∨ s.stop = some n → n < 0 → isWord (n + len) = true
  walks    : Walks (s.limit len) s.stride (s.first len) (s.progression len)
  indices  : (s.indices len).map Nat.cast = s.progression len
  none     : s.stride = 0 → s.indices len = []
  lt       : ∀ i ∈ s.indices len, i < len
  up       : 0 < s.stride → (s.indices len).Pairwise (· < ·)
  down     : s.stride < 0 → (s.indices len).Pairwise (· > ·)
  contains : ∀ i, s.contains len i = true ↔ (i : Int) ∈ s.progression len

theorem walks_progression (hf : s.fits = true) (hl : len < 0x8000000000000000)
    (h : ¬ s.GoesAround len) :
    Walks (s.limit len) s.stride (s.first len) (s.progression len) := by
  rw [first_eq_opening hf hl, limit_eq_closing hf hl]
  refine walks_termsBefore fun i hi => ?_
  cases hw : isWord (i + s.stride) with
  | true  => rfl
  | false => exact absurd ⟨i, hi, hw⟩ h

theorem indices_eq_progression (hf : s.fits = true) (hl : len < 0x8000000000000000)
    (h : ¬ s.GoesAround len) : (s.indices len).map Nat.cast = s.progression len := by
  have hlen := s.length_progression_le len
  have hwalk : walk (s.limit len) s.stride (2 * len + 2) (s.first len) = s.progression len :=
    (walks_progression hf hl h).walk_eq (by omega)
  have hid : ∀ i ∈ s.progression len, ((i % 0x10000000000000000).toNat : Int) = i := by
    intro i hi
    have := bounds_of_mem_progression hi
    omega
  rw [Slice.indices]
  split
  case isTrue h0 =>
    rw [List.map_nil, eq_comm, List.eq_nil_iff_forall_not_mem]
    intro i hi
    obtain ⟨_, _, hb⟩ := mem_termsBefore_iff.mp hi
    have := bounds_of_mem_progression hi
    simp only [Before] at hb
    omega
  case isFalse =>
    rw [hwalk, List.map_map]
    exact (List.map_congr_left hid).trans (List.map_id _)

theorem exact_of_not_goesAround (hf : s.fits = true) (hl : len < 0x8000000000000000)
    (h : ¬ s.GoesAround len) : s.Exact len := by
  have he := indices_eq_progression hf hl h
  have hmem : ∀ i, i ∈ s.indices len ↔ (i : Int) ∈ s.progression len := by
    intro i
    rw [← he, List.mem_map_of_injective fun _ _ => Int.ofNat_inj.mp]
  exact {
    bounds := by
      intro n hn hneg
      simp only [fits, Bool.and_eq_true, Option.all_eq_true] at hf
      have hw := isWord_iff.mp (hn.elim (hf.1.1 n) (hf.1.2 n))
      exact isWord_iff.mpr (by omega)
    walks := walks_progression hf hl h
    indices := he
    none := fun h0 => by simp [Slice.indices, h0]
    lt := fun i hi => by
      have := bounds_of_mem_progression ((hmem i).mp hi)
      omega
    up := fun hs => by
      have hp := he ▸ progression_up len hs
      exact (List.pairwise_map.mp hp).imp Int.ofNat_lt.mp
    down := fun hs => by
      have hp := he ▸ progression_down len hs
      exact (List.pairwise_map.mp hp).imp Int.ofNat_lt.mp
    contains := fun i => by rw [Slice.contains, List.contains_iff_mem, hmem] }

theorem exists_mem_indices_of_goesAround (hf : s.fits = true) (hl : len < 0x8000000000000000)
    (h : s.GoesAround len) : ∃ i ∈ s.indices len, 0x8000000000000000 ≤ i := by
  obtain ⟨i, hi, hout⟩ := h
  have hin := bounds_of_mem_progression hi
  have hs : 0 < s.stride := by
    by_contra hs
    exact not_goesAround hf hl (.inl (by omega)) ⟨i, hi, hout⟩
  have hlen := s.length_progression_le len
  rw [progression, termsBefore, List.length_map, List.length_range] at hlen
  have hneg : ∃ j ∈ walk (s.closing len) s.stride (2 * len + 2) (s.opening len), j < 0 :=
    exists_neg_mem_walk hs (stride_isWord hf) (first_eq_opening hf hl ▸ first_isWord)
      ((s.closing_bounds len).1 hs).1 (by omega) ⟨i, hi, hout⟩
  rw [← first_eq_opening hf hl, ← limit_eq_closing hf hl] at hneg
  obtain ⟨j, hj, hneg⟩ := hneg
  refine ⟨_, mem_indices_iff.mpr ⟨by omega, j, hj, rfl⟩, ?_⟩
  have := isWord_iff.mp (mem_walk first_isWord hj).1
  omega

-- Slices are resolved like progressions, unless the walk goes around behind its last index. It then
-- goes on at an index of no array.
theorem indices_exact (hf : s.fits = true) (hl : len < 0x8000000000000000) :
    (s.stride ≤ 0 ∨ len + s.stride ≤ 0x8000000000000000 → ¬ s.GoesAround len) ∧
      (¬ s.GoesAround len → s.Exact len) ∧
      (s.GoesAround len → ∃ i ∈ s.indices len, 0x8000000000000000 ≤ i) :=
  ⟨not_goesAround hf hl, exact_of_not_goesAround hf hl, exists_mem_indices_of_goesAround hf hl⟩

theorem indices_exact_down :
    let s : Slice := ⟨none, some (-0x8000000000000000), some (-2)⟩
    s.Exact 5 ∧ s.indices 5 = [4, 2, 0] := by
  intro s
  have hf : s.fits = true := by decide
  have hl : 5 < 0x8000000000000000 := by decide
  obtain ⟨hstays, hexact, _⟩ := indices_exact hf hl
  exact ⟨hexact (hstays (.inl (by decide))), by decide⟩

example :
    let s : Slice := ⟨some 1, none, some 0x7fffffffffffffff⟩
    s.progression 2 = [1] ∧ s.GoesAround 2 ∧
      s.indices 2 = [1, 0x8000000000000000, 0xffffffffffffffff] := by
  decide

end JsonQuery.Slice
