import JsonQuery.Regex.Bounds

namespace JsonQuery.Regex

-- A set of characters by the code points at which membership changes. Since a set has only one such
-- list, classes of the same characters are equal.
structure CharClass where
  bounds    : Bounds
  ascending : bounds.Pairwise (· < ·)
  deriving DecidableEq

namespace CharClass

def contains (a : CharClass) (c : Char) : Bool := a.bounds.inside false c.toNat

def empty : CharClass := ⟨[], .nil⟩

theorem contains_empty (c : Char) : empty.contains c = false :=
  rfl

-- The class of the characters whose membership is computed from that in two classes.
def combine (op : Bool → Bool → Bool) (a b : CharClass) : CharClass where
  bounds    := Bounds.merge op false false a.bounds b.bounds
  ascending := Bounds.pairwise_merge a.ascending b.ascending

theorem contains_combine {op : Bool → Bool → Bool} (h : op false false = false) (a b : CharClass)
    (c : Char) : (combine op a b).contains c = op (a.contains c) (b.contains c) := by
  rw [contains, ← h]
  exact Bounds.inside_merge a.ascending b.ascending c.toNat

def union : CharClass → CharClass → CharClass := combine (· || ·)

def inter : CharClass → CharClass → CharClass := combine (· && ·)

def diff : CharClass → CharClass → CharClass := combine fun a b => a && !b

def symmDiff : CharClass → CharClass → CharClass := combine (· != ·)

theorem contains_union (a b : CharClass) (c : Char) :
    (a.union b).contains c = (a.contains c || b.contains c) :=
  contains_combine rfl a b c

theorem contains_inter (a b : CharClass) (c : Char) :
    (a.inter b).contains c = (a.contains c && b.contains c) :=
  contains_combine rfl a b c

theorem contains_diff (a b : CharClass) (c : Char) :
    (a.diff b).contains c = (a.contains c && !b.contains c) :=
  contains_combine rfl a b c

theorem contains_symmDiff (a b : CharClass) (c : Char) :
    (a.symmDiff b).contains c = (a.contains c != b.contains c) :=
  contains_combine rfl a b c

def negate (a : CharClass) : CharClass := ⟨a.bounds.flip, Bounds.pairwise_flip a.ascending⟩

theorem contains_negate (a : CharClass) (c : Char) : a.negate.contains c = !a.contains c :=
  Bounds.inside_flip a.bounds c.toNat

-- The class itself or, if `n` holds, its complement.
def negateIf (n : Bool) (a : CharClass) : CharClass := if n then a.negate else a

theorem contains_negateIf (n : Bool) (a : CharClass) (c : Char) :
    (negateIf n a).contains c = (a.contains c != n) := by
  cases n <;> simp [negateIf, contains_negate]

-- A bound at a code point. The surrogates are no characters, so that all bounds between the
-- characters around them are one.
def bound (n : Nat) : Nat := if 0xD800 < n ∧ n ≤ 0xE000 then 0xD800 else n

-- The characters between two code points, both included.
def range (first last : Nat) : CharClass :=
  if h : bound first < bound (last + 1) then
    if bound (last + 1) ≤ 0x10FFFF then ⟨[bound first, bound (last + 1)], by simp [h]⟩
    else ⟨[bound first], by simp⟩
  else
    empty

theorem contains_range {first last : Nat} {c : Char} :
    (range first last).contains c = true ↔ first ≤ c.toNat ∧ c.toNat ≤ last := by
  have hc : c.toNat < 0xD800 ∨ 0xDFFF < c.toNat ∧ c.toNat < 0x110000 := c.valid
  have bound_le (n : Nat) : bound n ≤ c.toNat ↔ n ≤ c.toNat := by unfold bound; split <;> omega
  have hf := bound_le first
  have hl := bound_le (last + 1)
  unfold range
  split
  case isTrue h =>
    split
    case isTrue => grind [contains, Bounds.inside]
    case isFalse => grind [contains, Bounds.inside]
  case isFalse h => grind [contains, Bounds.inside, empty]

def singleton (c : Char) : CharClass := range c.toNat c.toNat

theorem contains_singleton {c d : Char} : (singleton c).contains d = true ↔ d = c := by
  rw [singleton, contains_range, ← Char.toNat_inj]
  omega

def ofRanges (rs : List (Nat × Nat)) : CharClass :=
  rs.foldr (fun r a => (range r.1 r.2).union a) empty

theorem contains_ofRanges {rs : List (Nat × Nat)} {c : Char} :
    (ofRanges rs).contains c = true ↔ ∃ r ∈ rs, r.1 ≤ c.toNat ∧ c.toNat ≤ r.2 := by
  induction rs with
  | nil => simp [ofRanges, contains_empty]
  | cons r rs ih =>
    simp only [ofRanges, List.foldr_cons, contains_union, Bool.or_eq_true, contains_range] at ih ⊢
    simp [ih]

def ofCodes (codes : List Nat) : CharClass := ofRanges (codes.map fun n => (n, n))

-- The ranges of code points between the bounds, both ends included.
def rangesFrom : Bounds → List (Nat × Nat)
  | []          => []
  | [x]         => [(first x, 0x10FFFF)]
  | x :: y :: r => (first x, y - 1) :: rangesFrom r
where
  first (x : Nat) : Nat := if x = 0xD800 then 0xE000 else x

def ranges (a : CharClass) : List (Nat × Nat) := rangesFrom a.bounds

-- The character of a class with no others.
def only? (a : CharClass) : Option Char :=
  match a.ranges with
  | [(x, y)] => if x = y then some (Char.ofNat x) else none
  | _        => none

end CharClass

end JsonQuery.Regex
