namespace JsonQuery.Regex

-- What is measured of an automaton while it is built. Its states are numbered in the order in which
-- they are added. Some have lists, of transitions or of choices, that take room of their own.
structure Automaton where
  states    : Nat
  listBytes : Nat
  deriving DecidableEq

namespace Automaton

def start : Automaton := ⟨0, 0⟩

def bytes (a : Automaton) : Nat := 32 * a.states + a.listBytes

-- Larger automata are not built.
def byteLimit : Nat := 0xA00000

end Automaton

-- A part of the construction of an automaton, which comes to an end when it becomes too large.
abbrev Build := StateT Automaton Option

namespace Build

-- Adds a number of states, whose lists take some bytes in all.
def add (states listBytes : Nat) : Build Unit := fun a =>
  let a : Automaton := ⟨a.states + states, a.listBytes + listBytes⟩
  if a.bytes ≤ Automaton.byteLimit then some ((), a) else none

theorem bytes_add {a b : Automaton} {n m : Nat} (h : add n m a = some ((), b)) :
    b.bytes = a.bytes + 32 * n + m ∧ b.bytes ≤ Automaton.byteLimit := by
  simp only [add, Option.ite_none_right_eq_some, Option.some.injEq, Prod.mk.injEq, true_and] at h
  obtain ⟨hb, rfl⟩ := h
  refine ⟨?_, hb⟩
  simp only [Automaton.bytes]
  omega

-- Adds one state and gives its number.
def state (listBytes : Nat) : Build Nat := do
  let n := (← get).states
  add 1 listBytes
  return n

-- Adds a choice to a state that has a list of them.
def link : Build Unit := add 0 4

-- Goes on from the last state of what has been built. `choosing` tells whether it has a list of
-- choices.
def leave (choosing : Bool) : Build Unit := if choosing then link else pure ()

-- Takes a step `n` times, each time from the result of the step before.
def iterate (step : Bool → Build Bool) : Nat → Bool → Automaton → Option (Bool × Automaton)
  | 0,     e, a => some (e, a)
  | n + 1, e, a =>
    match step e a with
    | some (e, a) => iterate step n e a
    | none        => none

end Build

end JsonQuery.Regex
