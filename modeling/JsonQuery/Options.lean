namespace JsonQuery

-- The depth of what is computed one level further down. Depths are unsigned 64 bit numbers, and
-- behind the largest one they start again at zero.
def deeper (depth : Nat) : Nat := (depth + 1) % 0x10000000000000000

theorem deeper_le (depth : Nat) : deeper depth ≤ depth + 1 :=
  Nat.mod_le _ _

theorem deeper_lt (depth : Nat) : deeper depth < 0x10000000000000000 :=
  Nat.mod_lt _ (by decide)

theorem deeper_of_lt {depth : Nat} (h : depth < 0xFFFFFFFFFFFFFFFF) : deeper depth = depth + 1 :=
  Nat.mod_eq_of_lt (by omega)

-- What stands between the segments of a flattened key.
inductive Separator where
  | dot
  | slash
  | custom (c : Char)
  deriving DecidableEq

def Separator.char : Separator → Char
  | dot      => '.'
  | slash    => '/'
  | custom c => c

structure Options where
  -- How deep a computation may descend.
  maxDepth : Nat
  -- How many nulls a write may add in front of a new array index.
  maxPadding : Nat
  -- Whether a required segment that leads nowhere is an error.
  strict : Bool
  -- Whether a read stops after its first match.
  onlyFirst : Bool
  -- Whether a write creates a path of keys and indices that does not exist.
  createMissing : Bool
  -- Whether the removal of a path that does not exist is no error.
  tolerantDelete : Bool
  separator : Separator
  deriving DecidableEq

namespace Options

def default : Options where
  maxDepth       := 100
  maxPadding     := 100000
  strict         := false
  onlyFirst      := false
  createMissing  := true
  tolerantDelete := false
  separator      := .dot

instance : Inhabited Options := ⟨default⟩

end Options

end JsonQuery
