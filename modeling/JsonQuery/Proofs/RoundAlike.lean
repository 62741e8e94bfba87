import JsonQuery.Builtin.Shape
import JsonQuery.Path.Selection
import JsonQuery.Proofs.Patterns
import JsonQuery.Proofs.Rounding
import JsonQuery.Search.Matcher

namespace JsonQuery

namespace Number

variable {a b : Number}

-- The exact value in units.
def units : Number → Int
  | int n   => n * Finite.one
  | float x => x.units

-- Whether no rounding is needed to represent the exact value in binary64.
def IsBinary64 (a : Number) : Prop := ∃ x : Finite, x.units = a.units

-- Whether the exact values of two numbers are rounded to the same one.
def RoundAlike (a b : Number) : Prop := ∃ x : Finite, x.Nearest a.units ∧ x.Nearest b.units

theorem isBinary64_int {n : Int} (h : n.natAbs ≤ 2 ^ 53) : (int n).IsBinary64 := by
  rcases Nat.eq_or_lt_of_le h with h | h
  case inl => exact Binary64.exact_of_natAbs (m := 1) (k := 53) (by decide) (by decide) (by omega)
  case inr => exact Binary64.exact_of_natAbs (k := 0) h (by decide) (Nat.mul_one _).symm

theorem approx_eq_nearest (ha : (Json.num a).WellFormed) :
    ∃ x : Finite, a.approx = .finite x ∧ x.Nearest a.units := by
  cases a with
  | int n =>
    obtain ⟨hl, hu⟩ : -0x8000000000000000 ≤ n ∧ n < 0x10000000000000000 := ha
    exact Binary64.nearest_ofInt (by omega)
  | float x => exact ⟨x, rfl, Finite.nearest_self x⟩

theorem RoundAlike.of_units (ha : (Json.num a).WellFormed) (h : a.units = b.units) :
    a.RoundAlike b := by
  obtain ⟨x, _, hx⟩ := approx_eq_nearest ha
  exact ⟨x, hx, h ▸ hx⟩

theorem RoundAlike.units_eq (ha : a.IsBinary64) (hb : b.IsBinary64) (h : a.RoundAlike b) :
    a.units = b.units := by
  obtain ⟨x, hx⟩ := ha
  obtain ⟨y, hy⟩ := hb
  obtain ⟨z, hxz, hyz⟩ := h
  rw [← hx] at hxz ⊢
  rw [← hy] at hyz ⊢
  exact ((Finite.nearest_self x).units_eq hxz).trans (hyz.units_eq (Finite.nearest_self y))

-- A number that needs rounding is rounded like another one.
theorem exists_roundAlike (ha : (Json.num a).WellFormed) (h : ¬ a.IsBinary64) :
    ∃ c : Number, (Json.num c).WellFormed ∧ c.units ≠ a.units ∧ a.RoundAlike c := by
  obtain ⟨x, _, hx⟩ := approx_eq_nearest ha
  exact ⟨float x, trivial, fun e => h ⟨x, e⟩, x, hx, Finite.nearest_self x⟩

theorem equals_approx_iff (ha : (Json.num a).WellFormed) (hb : (Json.num b).WellFormed) :
    a.approx.equals b.approx = true ↔ a.RoundAlike b := by
  obtain ⟨x, hax, hx⟩ := approx_eq_nearest ha
  obtain ⟨y, hby, hy⟩ := approx_eq_nearest hb
  rw [hax, hby, Binary64.equals_finite]
  constructor
  case mp  => exact fun h => ⟨x, hx, hy.congr h.symm⟩
  case mpr => exact fun ⟨z, hxz, hyz⟩ => (hx.units_eq hxz).trans (hyz.units_eq hy)

-- Rounding does not turn the order around.
theorem compare?_approx (ha : (Json.num a).WellFormed) (hb : (Json.num b).WellFormed)
    (h : ¬ a.RoundAlike b) : a.approx.compare? b.approx = some (compare a.units b.units) := by
  rw [← equals_approx_iff ha hb] at h
  obtain ⟨x, hax, hx⟩ := approx_eq_nearest ha
  obtain ⟨y, hby, hy⟩ := approx_eq_nearest hb
  rw [hax, hby, Binary64.equals_finite] at h
  rw [hax, hby, Binary64.compare?]
  refine congrArg some ?_
  rcases Int.lt_trichotomy a.units b.units with hlt | e | hgt
  · have hle := hx.monotone hy (Int.le_of_lt hlt)
    rw [compare_lt_iff_lt.mpr hlt, compare_lt_iff_lt]
    omega
  · exact absurd (hx.units_eq (e ▸ hy)) h
  · have hle := hy.monotone hx (Int.le_of_lt hgt)
    rw [compare_gt_iff_gt.mpr hgt, compare_gt_iff_gt]
    omega

end Number

namespace Json

variable {v : Json} {a b : Number} {items front : List Json}

theorem equal_num_iff (hv : v.WellFormed) (hb : (num b).WellFormed) :
    v.equal (num b) = true ↔ ∃ a, v = num a ∧ a.RoundAlike b := by
  cases v
  case num a => simpa [equal] using Number.equals_approx_iff hv hb
  all_goals simp [equal]

-- Whether one of the numbers in a list is rounded like another one.
def HasAlike (items : List Json) (b : Number) : Prop := ∃ a, num a ∈ items ∧ a.RoundAlike b

theorem any_equal_num_iff (hw : ∀ x ∈ items, x.WellFormed) (hb : (num b).WellFormed) :
    items.any (·.equal (num b)) = true ↔ HasAlike items b := by
  rw [List.any_eq_true]
  constructor
  case mp =>
    rintro ⟨x, hx, h⟩
    obtain ⟨a, rfl, ha⟩ := (equal_num_iff (hw x hx) hb).mp h
    exact ⟨a, hx, ha⟩
  case mpr =>
    rintro ⟨a, ha, h⟩
    exact ⟨num a, ha, (equal_num_iff (hw _ ha) hb).mpr ⟨a, rfl, h⟩⟩

-- A number is dropped if it is rounded like an earlier one.
theorem unique_append_num (hw : ∀ x ∈ front, x.WellFormed) (hb : (num b).WellFormed)
    (back : List Json) : ∃ kept after,
      (arr front).unique = arr kept ∧ after.Sublist back ∧
      (HasAlike front b → (arr (front ++ num b :: back)).unique = arr (kept ++ after)) ∧
      (¬ HasAlike front b →
        (arr (front ++ num b :: back)).unique = arr (kept ++ num b :: after)) := by
  obtain ⟨kept, hk⟩ : ∃ kept, uniqueFrom [] front = kept := ⟨_, rfl⟩
  have hu : (arr (front ++ num b :: back)).unique =
      arr (kept ++ uniqueFrom (kept.reverse ++ []) (num b :: back)) := by
    rw [unique, uniqueFrom_append, hk]
  have hs : (kept.reverse ++ []).any (·.equal (num b)) = kept.any (·.equal (num b)) := by simp
  rw [← any_equal_num_iff hw hb, ← any_unique hw hb, hu, uniqueFrom, hs, unique, hk]
  cases kept.any (·.equal (num b)) with
  | true  => exact ⟨kept, _, rfl, uniqueFrom_sublist, fun _ => rfl, fun h => absurd rfl h⟩
  | false =>
    exact ⟨kept, _, rfl, uniqueFrom_sublist, fun h => absurd h Bool.false_ne_true, fun _ => rfl⟩

theorem contains_num_iff (hv : v.WellFormed) (hb : (num b).WellFormed) :
    v.contains (num b) = bool true ↔ ∃ items, v = arr items ∧ HasAlike items b := by
  cases v
  case arr items =>
    simpa [contains] using any_equal_num_iff (wellFormedItems_iff.mp hv.2) hb
  all_goals simp [contains]

end Json

namespace Matcher

open Json

variable {v : Json} {b : Number}

theorem equal_num (caseSensitive : Bool) (v : Json) (b : Number) :
    equal caseSensitive v (num b) = v.equal (num b) := by
  cases v <;> rfl

theorem accepts_exact_num_iff (caseSensitive : Bool) (hv : v.WellFormed) (hb : (num b).WellFormed) :
    (exact (num b)).accepts caseSensitive v = true ↔ ∃ a, v = num a ∧ a.RoundAlike b := by
  rw [accepts, equal_num, equal_num_iff hv hb]

theorem accepts_contains_num_iff (caseSensitive : Bool) (hv : v.WellFormed)
    (hb : (num b).WellFormed) : (contains (num b)).accepts caseSensitive v = true ↔
      ∃ items, v = arr items ∧ HasAlike items b := by
  cases v
  case arr items =>
    simpa [accepts, equal_num] using any_equal_num_iff (wellFormedItems_iff.mp hv.2) hb
  all_goals simp [accepts]

end Matcher

namespace Predicate

open Json

-- A comparison with a number and a pattern with a number make the same test.
theorem accepts_compare_num (key : String) (b : Number) (place : Place) (v : Json) :
    (compare key .eq (num b)).accepts place v =
      (v.child? (.key key)).any (·.equal (num b)) := by
  have he (x : Json) : (x.compare? (num b)).any Comparison.eq.holds = x.equal (num b) := by
    cases x
    case num a =>
      rw [Json.compare?, equal, Binary64.equals]
      rcases a.approx.compare? b.approx with _ | _ | _ | _ <;> rfl
    all_goals rfl
  cases v
  case obj ms =>
    simp only [accepts, child?]
    cases Members.get? ms key with
    | none   => rfl
    | some x => exact he x
  all_goals rfl

theorem accepts_members_num (key : String) (b : Number) (place : Place) (v : Json) :
    (members [(key, num b)]).accepts place v = (v.child? (.key key)).any (·.equal (num b)) := by
  have he (x : Json) : x.fits (num b) = x.equal (num b) := fits_of_not_object nofun
  cases v
  case obj ms =>
    simp only [accepts, fitsMembers, child?, he, Bool.and_true]
    cases Members.get? ms key <;> rfl
  all_goals rfl

end Predicate

namespace Json

variable {v : Json} {a b : Number}

theorem any_child_equal_num_iff (s : Step) (hv : v.WellFormed) (hb : (num b).WellFormed) :
    (v.child? s).any (·.equal (num b)) = true ↔
      ∃ a, v.child? s = some (num a) ∧ a.RoundAlike b := by
  cases hx : v.child? s with
  | none   => simp
  | some x => simpa using equal_num_iff (hv.child? hx) hb

-- Numbers are compared after rounding: two of them count as equal exactly if they are rounded to
-- the same binary64 number, and otherwise they are in their numeric order. Those that are binary64
-- numbers are compared exactly, and each of the others counts as equal to another number. So what
-- looks for a number finds those that are rounded like it.
theorem numbers_round_alike (ha : (num a).WellFormed) (hb : (num b).WellFormed) :
    ((num a).equal (num b) = true ↔ a.RoundAlike b) ∧
    (a.RoundAlike b → (num a).compare? (num b) = some .eq) ∧
    (¬ a.RoundAlike b → (num a).compare? (num b) = some (compare a.units b.units)) ∧
    (a.units = b.units → a.RoundAlike b) ∧
    (a.IsBinary64 → b.IsBinary64 → a.RoundAlike b → a.units = b.units) ∧
    (¬ a.IsBinary64 → ∃ c : Number, (num c).WellFormed ∧ c.units ≠ a.units ∧ a.RoundAlike c) ∧
    (∀ front back, (∀ x ∈ front, x.WellFormed) → ∃ kept after,
      (arr front).unique = arr kept ∧ after.Sublist back ∧
      (HasAlike front b → (arr (front ++ num b :: back)).unique = arr (kept ++ after)) ∧
      (¬ HasAlike front b →
        (arr (front ++ num b :: back)).unique = arr (kept ++ num b :: after))) ∧
    (∀ v : Json, v.WellFormed →
      (v.contains (num b) = bool true ↔ ∃ items, v = arr items ∧ HasAlike items b) ∧
      (∀ caseSensitive,
        ((Matcher.exact (num b)).accepts caseSensitive v = true ↔
          ∃ c, v = num c ∧ c.RoundAlike b) ∧
        ((Matcher.contains (num b)).accepts caseSensitive v = true ↔
          ∃ items, v = arr items ∧ HasAlike items b)) ∧
      ∀ key, ∀ p ∈ [Predicate.compare key .eq (num b), .members [(key, num b)]], ∀ place,
        (p.accepts place v = true ↔
          ∃ c, v.child? (.key key) = some (num c) ∧ c.RoundAlike b)) := by
  have he : (num a).equal (num b) = true ↔ a.RoundAlike b := Number.equals_approx_iff ha hb
  refine ⟨he, fun h => ?eq, Number.compare?_approx ha hb, .of_units ha, Number.RoundAlike.units_eq,
    Number.exists_roundAlike ha, fun front back hw => unique_append_num hw hb back,
    fun v hv => ⟨contains_num_iff hv hb, fun c => ?search, fun key p hp place => ?select⟩⟩
  case eq => exact eq_of_beq (he.mpr h)
  case search =>
    exact ⟨Matcher.accepts_exact_num_iff c hv hb, Matcher.accepts_contains_num_iff c hv hb⟩
  case select =>
    rw [← any_child_equal_num_iff (.key key) hv hb]
    rcases List.mem_pair.mp hp with rfl | rfl
    · rw [Predicate.accepts_compare_num]
    · rw [Predicate.accepts_members_num]

-- The first integer that is no binary64 number, and the one before it.
theorem numbers_round_alike_neighbours :
    let a := Number.int 9007199254740993
    let b := Number.int 9007199254740992
    a.RoundAlike b ∧ a.units ≠ b.units ∧ b.IsBinary64 ∧ ¬ a.IsBinary64 ∧
      (Matcher.exact (num b)).accepts true (num a) = true ∧
      (arr [num b, num a]).unique = arr [num b] := by
  intro a b
  have ha : (num a).WellFormed := by simp [a, WellFormed]
  have hb : (num b).WellFormed := by simp [b, WellFormed]
  have hne : a.units ≠ b.units := by decide +kernel
  have hbin : b.IsBinary64 := Number.isBinary64_int (by decide)
  obtain ⟨heq, _, _, _, hexact, _, _, hfind⟩ := numbers_round_alike ha hb
  have hr : a.RoundAlike b := heq.mp (by decide +kernel)
  refine ⟨hr, hne, hbin, fun h => hne (hexact h hbin hr),
    ((hfind (num a) ha).2.1 true).1.mpr ⟨a, rfl, hr⟩, ?_⟩
  obtain ⟨_, _, _, _, _, _, hunique, _⟩ := numbers_round_alike hb ha
  obtain ⟨kept, after, hk, hs, hdrop, _⟩ := hunique [num b] [] (by simpa using hb)
  cases hk
  cases hs
  obtain ⟨x, hx, hy⟩ := hr
  exact hdrop ⟨b, List.mem_singleton_self _, x, hy, hx⟩

end Json

end JsonQuery
