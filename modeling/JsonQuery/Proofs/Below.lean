import JsonQuery.Json.Location

namespace JsonQuery

namespace Location

-- What is left of the locations that begin with a step.
def below (s : Step) (ls : List Location) : List Location :=
  ls.filterMap fun
    | t :: l => if t = s then some l else none
    | []     => none

variable {s : Step} {l : Location} {ls ms : List Location} {n : Nat}

theorem mem_below : l ∈ below s ls ↔ s :: l ∈ ls := by
  simp only [below, List.mem_filterMap]
  constructor
  case mp =>
    rintro ⟨m, hm, h⟩
    cases m with
    | nil => simp at h
    | cons t m =>
      by_cases ht : t = s
      case pos => simp_all
      case neg => simp [ht] at h
  case mpr => exact fun h => ⟨s :: l, h, by simp⟩

theorem mem_below_congr (h : ∀ l, l ∈ ls ↔ l ∈ ms) : l ∈ below s ls ↔ l ∈ below s ms := by
  rw [mem_below, mem_below, h]

theorem below_snoc_self (s : Step) (ls : List Location) (l : Location) :
    below s (ls ++ [s :: l]) = below s ls ++ [l] := by
  simp [below]

theorem below_snoc_of_ne {t : Step} (h : t ≠ s) (ls : List Location) (l : Location) :
    below s (ls ++ [t :: l]) = below s ls := by
  simp [below, h]

theorem below_snoc_nil (s : Step) (ls : List Location) : below s (ls ++ [[]]) = below s ls := by
  simp [below]

theorem length_of_mem_below (h : ∀ m ∈ ls, m.length = n + 1) : ∀ m ∈ below s ls, m.length = n :=
  fun m hm => Nat.succ.inj (h (s :: m) (mem_below.mp hm))

-- What is left of the locations that begin with several steps.
def beneath (m : Location) (ls : List Location) : List Location :=
  match m with
  | []        => ls
  | s :: rest => beneath rest (below s ls)

theorem mem_beneath {m : Location} : l ∈ beneath m ls ↔ m ++ l ∈ ls := by
  induction m generalizing ls with
  | nil => rfl
  | cons s rest ih => rw [beneath, ih, mem_below, List.cons_append]

theorem beneath_snoc (m : Location) (s : Step) (ls : List Location) :
    beneath (m ++ [s]) ls = below s (beneath m ls) := by
  induction m generalizing ls with
  | nil => rfl
  | cons t m ih => exact ih (below t ls)

end Location

end JsonQuery
