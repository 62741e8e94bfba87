namespace JsonQuery.Text

-- Characters that change case by the same distance: `first`, `first + stride` and so on up to
-- `last` become `target`, `target + stride` and so on.
structure CaseRun where
  first  : Nat
  last   : Nat
  stride : Nat
  target : Nat

namespace CaseRun

def covers (r : CaseRun) (n : Nat) : Bool :=
  r.first ≤ n && n ≤ r.last && (n - r.first) % r.stride == 0

-- Moves a character with the first run that covers it. A character of no run stays as it is.
def apply (runs : List CaseRun) (c : Char) : Char :=
  match runs.find? (·.covers c.toNat) with
  | some r => Char.ofNat (r.target + (c.toNat - r.first))
  | none   => c

end CaseRun

end JsonQuery.Text
