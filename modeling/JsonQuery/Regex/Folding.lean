import JsonQuery.Regex.Property

namespace JsonQuery.Regex

-- Which characters count as equal without regard to case.
inductive Folding where
  | unicode
  | ascii
  deriving DecidableEq

namespace Folding

def unicodeOrbits : List Text.CaseOrbit :=
  Text.CaseOrbit.ofCodes
    (Text.caseCodes.filter fun n => !CharClass.unassigned.contains (Char.ofNat n))

def asciiOrbits : List Text.CaseOrbit :=
  (List.range 26).map fun i => ⟨0x61 + i, [0x41 + i, 0x61 + i]⟩

def orbits : Folding → List Text.CaseOrbit
  | unicode => unicodeOrbits
  | ascii   => asciiOrbits

end Folding

namespace CharClass

-- The code points of all orbits that meet the class.
def variants (f : Folding) (a : CharClass) : List Nat :=
  let meets (o : Text.CaseOrbit) := o.members.any (a.bounds.inside false)
  (f.orbits.filter meets).flatMap (·.members)

-- All characters that are equal to one of the class without regard to case.
def folded (f : Folding) (a : CharClass) : CharClass := a.union (ofCodes (a.variants f).mergeSort)

theorem contains_folded {f : Folding} {a : CharClass} {c : Char} :
    (a.folded f).contains c = true ↔ a.contains c = true ∨
      ∃ o ∈ f.orbits, c.toNat ∈ o.members ∧ ∃ n ∈ o.members, a.bounds.inside false n = true := by
  rw [folded, contains_union, Bool.or_eq_true, ofCodes, contains_ofRanges]
  refine or_congr_right ?_
  simp only [List.mem_map, List.mem_mergeSort, variants, List.mem_flatMap, List.mem_filter,
    List.any_eq_true]
  constructor
  case mp =>
    rintro ⟨r, ⟨n, ⟨o, ⟨ho, hn⟩, hm⟩, rfl⟩, low, high⟩
    have : n = c.toNat := by simp only at low high; omega
    exact ⟨o, ho, this ▸ hm, hn⟩
  case mpr =>
    rintro ⟨o, ho, hm, hn⟩
    exact ⟨_, ⟨c.toNat, ⟨o, ⟨ho, hn⟩, hm⟩, rfl⟩, Nat.le_refl _, Nat.le_refl _⟩

end CharClass

end JsonQuery.Regex
