namespace JsonQuery.Regex

-- A set of positions in a text: the position `i` belongs to it if the bit `i` is set. Sets are
-- numbers since they are combined for all positions at once.
abbrev Positions := Nat

namespace Positions

-- The positions below `n` for which a test holds.
def filter (test : Nat → Bool) : Nat → Positions
  | 0     => 0
  | n + 1 => if test n then filter test n ||| 1 <<< n else filter test n

theorem testBit_filter (test : Nat → Bool) (n i : Nat) :
    (filter test n).testBit i = (decide (i < n) && test i) := by
  induction n with
  | zero => simp [filter]
  | succ n ih =>
    simp only [filter]
    split
    case isTrue h =>
      rw [Nat.testBit_or, ih, Nat.one_shiftLeft, Nat.testBit_two_pow]
      by_cases hi : i = n
      · subst hi; simp [h]
      · have : ¬n = i := fun e => hi e.symm
        have : (i < n + 1) = (i < n) := by apply propext; omega
        simp [*]
    case isFalse h =>
      rw [ih]
      by_cases hi : i = n
      · subst hi; simp [h]
      · have : (i < n + 1) = (i < n) := by apply propext; omega
        simp [*]

-- The positions below `n`.
def below (n : Nat) : Positions := 1 <<< n - 1

-- The next positions.
def advance (s : Positions) : Positions := s <<< 1

theorem testBit_advance (s : Positions) (i : Nat) :
    s.advance.testBit (i + 1) = s.testBit i := by
  simp [advance, Nat.testBit_shiftLeft]

-- Removes the positions of another set.
def without (s t : Positions) : Positions := s ^^^ (s &&& t)

theorem testBit_without (s t : Positions) (i : Nat) :
    (s.without t).testBit i = (s.testBit i && !t.testBit i) := by
  simp only [without, Nat.testBit_xor, Nat.testBit_and]
  cases s.testBit i <;> cases t.testBit i <;> rfl

-- Takes a step `n` times.
def iterate (step : Positions → Positions) : Nat → Positions → Positions
  | 0,     s => s
  | n + 1, s => iterate step n (step s)

-- Takes a step up to `n` times. A round starts from what the round before has added, and there is
-- no further round after one that has added nothing.
def spread (step : Positions → Positions) : Nat → Positions → Positions → Positions
  | 0,     seen, _     => seen
  | n + 1, seen, front =>
    let new := (step front).without seen
    if new = 0 then seen else spread step n (seen ||| new) new

def upTo (step : Positions → Positions) (n : Nat) (s : Positions) : Positions := spread step n s s

theorem testBit_of_spread (step : Positions → Positions) {n i : Nat} {seen front : Positions}
    (h : seen.testBit i = true) : (spread step n seen front).testBit i = true := by
  induction n generalizing seen front with
  | zero => exact h
  | succ n ih =>
    simp only [spread]
    split
    case isTrue => exact h
    case isFalse => exact ih (by simp [Nat.testBit_or, h])

theorem testBit_of_upTo (step : Positions → Positions) {n i : Nat} {s : Positions}
    (h : s.testBit i = true) : (upTo step n s).testBit i = true :=
  testBit_of_spread step h

end Positions

end JsonQuery.Regex
