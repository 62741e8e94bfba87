namespace JsonQuery

-- The sum of some numbers, as a measure of work that is still to be done.
def total : List Nat → Nat
  | []        => 0
  | n :: rest => n + total rest

theorem total_nil : total [] = 0 :=
  rfl

theorem total_cons (n : Nat) (rest : List Nat) : total (n :: rest) = n + total rest :=
  rfl

theorem total_append (a b : List Nat) : total (a ++ b) = total a + total b := by
  induction a with
  | nil => simp [total]
  | cons n rest ih => simp [total, ih, Nat.add_assoc]

end JsonQuery
