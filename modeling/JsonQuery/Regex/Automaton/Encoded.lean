import JsonQuery.Regex.Automaton.Basic
import JsonQuery.Regex.Encoding
import Std.Data.HashMap

namespace JsonQuery.Regex

-- A step from a state over a range of bytes to the state with a number.
structure Transition where
  range  : ByteRange
  target : Nat
  deriving DecidableEq

namespace Build

-- A hash that takes in one number after the other.
def hash (ns : List Nat) : Nat :=
  (ns.foldl (fun h n => (h ^^^ n.toUInt64) * 0x100000001B3) (0xCBF29CE484222325 : UInt64)).toNat

-- The states that have been built for some keys. Each key has a place, which holds the last key
-- that was put there.
structure Shared (α : Type) where
  places : Nat
  kept   : Std.HashMap Nat (α × Nat)

namespace Shared

variable {α : Type} [DecidableEq α]

def empty (places : Nat) : Shared α := ⟨places, ∅⟩

-- The state for a key. It is added if there is none.
def state (s : Shared α) (key : α) (numbers : List Nat) (listBytes : Nat) :
    Build (Nat × Shared α) := do
  let place := hash numbers % s.places
  let known := s.kept[place]?.filter (·.1 = key)
  match known with
  | some (_, n) => return (n, s)
  | none =>
    let n ← Build.state listBytes
    return (n, { s with kept := s.kept.insert place (key, n) })

end Shared

-- A state that is not finished: its transitions, the last one first, and the range of bytes of one
-- more whose target is not built.
structure Draft where
  done : List Transition
  last : Option ByteRange

def Draft.finish (d : Draft) (target : Nat) : Draft :=
  ⟨d.last.elim d.done (⟨·, target⟩ :: d.done), none⟩

-- A class in an automaton that reads forwards. The rows come in ascending order. Those that follow
-- each other share the states at their start, which are the drafts, the deepest one first. Equal
-- states at the end are shared among all rows.
structure Forward where
  shared : Shared (List Transition)
  drafts : List Draft

namespace Forward

def transitionState (s : Shared (List Transition)) (ts : List Transition) :
    Build (Nat × Shared (List Transition)) :=
  s.state ts (ts.flatMap fun t => [t.range.first, t.range.last, t.target]) (8 * ts.length)

-- Builds the drafts below the first `depth + 1`.
def close (depth target : Nat) (s : Shared (List Transition)) : List Draft → Build Forward
  | [] => return ⟨s, []⟩
  | d :: outer => do
    if depth < outer.length then
      let (n, s) ← transitionState s (d.finish target).done.reverse
      close depth n s outer
    else
      return ⟨s, d.finish target :: outer⟩

-- The number of drafts that a row has in common with the row before it.
def common : ByteRow → List Draft → Nat
  | r :: row, d :: drafts => if d.last = some r then common row drafts + 1 else 0
  | _, _ => 0

-- Opens drafts for the rest of a row. The deepest draft takes its first range.
def extend (row : ByteRow) : List Draft → List Draft
  | d :: outer =>
    match row with
    | r :: rest =>
      (rest.map fun r => ⟨[], some r⟩).reverse ++ { d with last := some r } :: outer
    | [] => d :: outer
  | [] => []

def row (target : Nat) (f : Forward) (row : ByteRow) : Build Forward := do
  let depth := common row f.drafts.reverse
  let f ← close depth target f.shared f.drafts
  return { f with drafts := extend (row.drop depth) f.drafts }

-- Builds the states of a class, the last one of which is the first to be built.
def build (rows : List ByteRow) : Build Unit := do
  let target ← Build.state 0
  let f ← rows.foldlM (row target) ⟨.empty 10000, [⟨[], none⟩]⟩
  let f ← close 0 target f.shared f.drafts
  match f.drafts with
  | [root] =>
    let _ ← transitionState f.shared root.done.reverse
  | _ => pure ()

end Forward

-- A class in an automaton that reads backwards. The rows are choices, and those that start alike
-- share the states for it.
namespace Backward

-- Adds the state that reads a byte and goes on to a target.
def byte (s : Nat × Shared (Nat × ByteRange)) (r : ByteRange) :
    Build (Nat × Shared (Nat × ByteRange)) :=
  let (target, shared) := s
  shared.state (target, r) [target, r.first, r.last] 0

def build (rows : List ByteRow) : Build Unit := do
  let _ ← Build.state 0
  let target ← Build.state 0
  let step (s : Shared (Nat × ByteRange)) (row : ByteRow) : Build (Shared (Nat × ByteRange)) := do
    let (_, s) ← row.foldlM byte (target, s)
    link
    return s
  let _ ← rows.foldlM step (.empty 1000)

end Backward

end Build

end JsonQuery.Regex
