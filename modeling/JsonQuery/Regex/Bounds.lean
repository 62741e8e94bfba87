namespace JsonQuery.Regex

-- The numbers at which membership in a set changes, the least one first.
abbrev Bounds := List Nat

namespace Bounds

-- Whether a number is inside, where `b` says it of the numbers in front of all bounds.
def inside (b : Bool) : Bounds → Nat → Bool
  | [],     _ => b
  | x :: r, n => if n < x then b else inside (!b) r n

theorem inside_of_lt {b : Bool} {l : Bounds} {n : Nat} (h : ∀ x ∈ l, n < x) :
    inside b l n = b := by
  cases l with
  | nil => rfl
  | cons x r => simp [inside, h x List.mem_cons_self]

-- A change of both values shows behind all bounds.
theorem inside_congr {f : Bool → Bool} (h : f true ≠ f false) (b : Bool) (l : Bounds) (n : Nat) :
    inside (f b) l n = f (inside b l n) := by
  induction l generalizing b with
  | nil => rfl
  | cons x r ih =>
    have hf : (!f b) = f !b := by
      cases ht : f true <;> cases hf : f false <;> cases b <;> simp_all
    simp only [inside, hf, ih]
    split <;> rfl

-- Sets a bound if the values at its sides differ.
def turn (before after : Bool) (x : Nat) (rest : Bounds) : Bounds :=
  if before = after then rest else x :: rest

theorem mem_of_mem_turn {before after : Bool} {x y : Nat} {rest : Bounds}
    (h : y ∈ turn before after x rest) : y = x ∨ y ∈ rest := by
  unfold turn at h
  split at h
  case isTrue => exact .inr h
  case isFalse => exact List.mem_cons.mp h

theorem pairwise_turn {before after : Bool} {x : Nat} {rest : Bounds} (h : ∀ y ∈ rest, x < y)
    (hr : rest.Pairwise (· < ·)) : (turn before after x rest).Pairwise (· < ·) := by
  unfold turn
  split
  case isTrue => exact hr
  case isFalse => exact List.pairwise_cons.mpr ⟨h, hr⟩

theorem inside_turn {before after : Bool} {x n : Nat} {rest : Bounds} (h : ∀ y ∈ rest, x < y) :
    inside before (turn before after x rest) n =
      if n < x then before else inside after rest n := by
  unfold turn
  split
  case isTrue e =>
    subst e
    split
    case isTrue hn => exact inside_of_lt fun y hy => Nat.lt_trans hn (h y hy)
    case isFalse => rfl
  case isFalse e =>
    have : (!before) = after := by cases before <;> cases after <;> simp_all
    simp only [inside, this]

-- The bounds of the set whose membership is computed from those in two sets. `a` and `b` are the
-- values in front.
def merge (op : Bool → Bool → Bool) (a b : Bool) (l m : Bounds) : Bounds :=
  match l, m with
  | [], m => if op a true = op a false then [] else m
  | l, [] => if op true b = op false b then [] else l
  | x :: r, y :: s =>
    if x < y then turn (op a b) (op (!a) b) x (merge op (!a) b r (y :: s))
    else if y < x then turn (op a b) (op a (!b)) y (merge op a (!b) (x :: r) s)
    else turn (op a b) (op (!a) (!b)) x (merge op (!a) (!b) r s)
termination_by l.length + m.length

variable {op : Bool → Bool → Bool} {a b : Bool} {l m : Bounds}

theorem mem_of_mem_merge {z : Nat} (h : z ∈ merge op a b l m) : z ∈ l ∨ z ∈ m := by
  fun_induction merge op a b l m with
  | case1 => simp at h
  | case2 => exact .inr h
  | case3 => simp at h
  | case4 => exact .inl h
  | case5 _ _ x r y s _ ih | case6 _ _ x r y s _ _ ih | case7 _ _ x r y s _ _ ih =>
    have := mem_of_mem_turn h
    grind

-- The bounds of two sets that lie above a number.
theorem lt_of_mem_merge {n z : Nat} (hl : ∀ x ∈ l, n < x) (hm : ∀ y ∈ m, n < y)
    (h : z ∈ merge op a b l m) : n < z :=
  (mem_of_mem_merge h).elim (hl z) (hm z)

theorem pairwise_merge (hl : l.Pairwise (· < ·)) (hm : m.Pairwise (· < ·)) :
    (merge op a b l m).Pairwise (· < ·) := by
  fun_induction merge op a b l m with
  | case1 => exact .nil
  | case2 => exact hm
  | case3 => exact .nil
  | case4 => exact hl
  | case5 _ _ x r y s _ ih =>
    have hx := List.pairwise_cons.mp hl
    have hy := List.pairwise_cons.mp hm
    refine pairwise_turn (fun z hz => lt_of_mem_merge hx.1 ?_ hz) (ih hx.2 hm)
    grind
  | case6 _ _ x r y s _ _ ih =>
    have hx := List.pairwise_cons.mp hl
    have hy := List.pairwise_cons.mp hm
    refine pairwise_turn (fun z hz => lt_of_mem_merge ?_ hy.1 hz) (ih hl hy.2)
    grind
  | case7 _ _ x r y s _ _ ih =>
    have hx := List.pairwise_cons.mp hl
    have hy := List.pairwise_cons.mp hm
    refine pairwise_turn (fun z hz => lt_of_mem_merge hx.1 ?_ hz) (ih hx.2 hy.2)
    grind

theorem inside_merge (hl : l.Pairwise (· < ·)) (hm : m.Pairwise (· < ·)) (n : Nat) :
    inside (op a b) (merge op a b l m) n = op (inside a l n) (inside b m n) := by
  fun_induction merge op a b l m with
  | case1 a b m e => cases b <;> cases h : inside _ m n <;> simp_all [inside]
  | case2 a b m e => simpa [inside] using inside_congr e b m n
  | case3 a b l _ e => cases a <;> cases h : inside _ l n <;> simp_all [inside]
  | case4 a b l _ e => simpa [inside] using inside_congr (f := (op · b)) e a l n
  | case5 a b x r y s _ ih =>
    have hx := List.pairwise_cons.mp hl
    have hy := List.pairwise_cons.mp hm
    rw [inside_turn fun z hz => lt_of_mem_merge hx.1 (by grind) hz, ih hx.2 hm]
    grind [inside]
  | case6 a b x r y s _ _ ih =>
    have hx := List.pairwise_cons.mp hl
    have hy := List.pairwise_cons.mp hm
    rw [inside_turn fun z hz => lt_of_mem_merge (by grind) hy.1 hz, ih hl hy.2]
    grind [inside]
  | case7 a b x r y s _ _ ih =>
    have hx := List.pairwise_cons.mp hl
    have hy := List.pairwise_cons.mp hm
    rw [inside_turn fun z hz => lt_of_mem_merge hx.1 (by grind) hz, ih hx.2 hy.2]
    grind [inside]

-- Adds or removes the numbers in front of the first bound, and so changes membership everywhere.
def flip : Bounds → Bounds
  | 0 :: r => r
  | l      => 0 :: l

theorem inside_flip (l : Bounds) (n : Nat) : inside false l.flip n = !inside false l n := by
  unfold flip
  split
  case h_1 r => simpa [inside] using inside_congr (f := (!·)) (by simp) true r n
  case h_2 => simpa [inside] using inside_congr (f := (!·)) (by simp) false l n

theorem pairwise_flip (h : l.Pairwise (· < ·)) : l.flip.Pairwise (· < ·) := by
  unfold flip
  split
  case h_1 => exact (List.pairwise_cons.mp h).2
  case h_2 hl =>
    refine List.pairwise_cons.mpr ⟨fun x hx => ?_, h⟩
    cases l with
    | nil => simp at hx
    | cons y r =>
      have hy : y ≠ 0 := fun e => hl r (by rw [e])
      have := (List.pairwise_cons.mp h).1
      grind

end Bounds

end JsonQuery.Regex
