import JsonQuery.Error

namespace JsonQuery

section

variable {α β ε : Type} {x : Except ε α} {y : β}

-- A computation in steps succeeds if all of its steps do.
theorem bind_eq_ok_iff {f : α → Except ε β} :
    x >>= f = .ok y ↔ ∃ a, x = .ok a ∧ f a = .ok y := by
  cases x <;> simp [bind, Except.bind]

theorem bind_eq_error_iff {f : α → Except ε β} {e : ε} :
    x >>= f = .error e ↔ x = .error e ∨ ∃ a, x = .ok a ∧ f a = .error e := by
  cases x <;> simp [bind, Except.bind]

theorem map_eq_ok_iff {f : α → β} : x.map f = .ok y ↔ ∃ a, x = .ok a ∧ f a = y := by
  cases x <;> simp [Except.map]

-- Computations that succeed wherever others do, with the same results, do so as a list of them.
theorem mapM_eq_ok_of_imp {f g : α → Except ε β} {xs : List α} {ys : List β}
    (hfg : ∀ x ∈ xs, ∀ y, f x = .ok y → g x = .ok y) (h : xs.mapM f = .ok ys) :
    xs.mapM g = .ok ys := by
  induction xs generalizing ys with
  | nil => exact h
  | cons x rest ih =>
    have ⟨hx, hr⟩ := List.forall_mem_cons.mp hfg
    rw [List.mapM_cons] at h ⊢
    have ⟨z, hz, h⟩ := bind_eq_ok_iff.mp h
    have ⟨zs, hzs, h⟩ := bind_eq_ok_iff.mp h
    exact bind_eq_ok_iff.mpr ⟨z, hx z hz, bind_eq_ok_iff.mpr ⟨zs, ih hr hzs, h⟩⟩

theorem mapM_eq_ok {f : α → Except ε β} {g : α → β} {xs : List α}
    (h : ∀ x ∈ xs, f x = .ok (g x)) : xs.mapM f = .ok (xs.map g) := by
  have hg : xs.mapM (fun x => Except.ok (g x)) = (.ok (xs.map g) : Except ε _) := List.mapM_pure
  exact mapM_eq_ok_of_imp (fun x hx y hy => (h x hx).trans hy) hg

theorem mem_of_mapM_eq_ok {f : α → Except ε β} {xs : List α} {ys : List β}
    (h : xs.mapM f = .ok ys) : ∀ y ∈ ys, ∃ x ∈ xs, f x = .ok y := by
  induction xs generalizing ys with
  | nil =>
    cases h
    simp
  | cons x rest ih =>
    rw [List.mapM_cons] at h
    have ⟨z, hz, h⟩ := bind_eq_ok_iff.mp h
    have ⟨zs, hzs, h⟩ := bind_eq_ok_iff.mp h
    cases h
    refine List.forall_mem_cons.mpr ⟨⟨x, List.mem_cons_self, hz⟩, fun y hy => ?_⟩
    have ⟨w, hw, hwy⟩ := ih hzs y hy
    exact ⟨w, List.mem_cons_of_mem x hw, hwy⟩

-- What the results show may be known from what the computations started with.
theorem map_of_mapM_eq_ok {γ : Type} {f : α → Except ε β} {g : β → γ} {k : α → γ} {xs : List α}
    {ys : List β} (hg : ∀ x y, f x = .ok y → g y = k x) (h : xs.mapM f = .ok ys) :
    ys.map g = xs.map k := by
  induction xs generalizing ys with
  | nil =>
    cases h
    rfl
  | cons x rest ih =>
    rw [List.mapM_cons] at h
    have ⟨z, hz, h⟩ := bind_eq_ok_iff.mp h
    have ⟨zs, hzs, h⟩ := bind_eq_ok_iff.mp h
    cases h
    rw [List.map_cons, List.map_cons, hg x z hz, ih hzs]

end

-- What a computation finds one after another. An error ends it, so there is at most one, and
-- nothing comes after it.
structure Run (α : Type) where
  found  : List α
  error? : Option Error

namespace Run

variable {α β γ : Type}

def nothing : Run α := ⟨[], none⟩

def one (x : α) : Run α := ⟨[x], none⟩

def fail (e : Error) : Run α := ⟨[], some e⟩

-- The one run and then the other, unless the first one has failed.
def andThen (r s : Run α) : Run α :=
  match r.error? with
  | some _ => r
  | none   => ⟨r.found ++ s.found, s.error?⟩

-- The runs that all members of a list lead to, from left to right.
def inTurn (f : α → Run β) : List α → Run β
  | []        => nothing
  | x :: rest => (f x).andThen (inTurn f rest)

-- Whatever a run finds leads to a run of its own. The error of the first one comes last.
def bind (r : Run α) (f : α → Run β) : Run β := (inTurn f r.found).andThen ⟨[], r.error?⟩

def map (f : α → β) (r : Run α) : Run β := ⟨r.found.map f, r.error?⟩

-- All that a run has to tell, in order.
def results (r : Run α) : List (Except Error α) := r.found.map .ok ++ r.error?.toList.map .error

def first? (r : Run α) : Except Error (Option α) :=
  match r.found, r.error? with
  | x :: _, _      => .ok (some x)
  | [],     some e => .error e
  | [],     none   => .ok none

def all (r : Run α) : Except Error (List α) :=
  match r.error? with
  | some e => .error e
  | none   => .ok r.found

-- What is left of a run that stops after the first thing that it finds.
def once (r : Run α) : Run α :=
  match r.found with
  | []     => r
  | x :: _ => one x

variable {r s : Run α} {f g : α → Run β} {xs ys : List α}

theorem andThen_of_error?_eq_none (h : r.error? = none) :
    r.andThen s = ⟨r.found ++ s.found, s.error?⟩ := by
  simp [andThen, h]

theorem andThen_of_error? {e : Error} (h : r.error? = some e) : r.andThen s = r := by
  simp [andThen, h]

theorem nothing_andThen (s : Run α) : nothing.andThen s = s :=
  rfl

theorem andThen_nothing (r : Run α) : r.andThen nothing = r := by
  cases h : r.error? with
  | some e => exact andThen_of_error? h
  | none   => simp [andThen_of_error?_eq_none h, nothing, ← h]

theorem andThen_assoc (r s t : Run α) : (r.andThen s).andThen t = r.andThen (s.andThen t) := by
  cases h : r.error? with
  | some e => simp [andThen, h]
  | none   => cases h' : s.error? <;> simp [andThen, h, h']

theorem error?_andThen_eq_none :
    (r.andThen s).error? = none ↔ r.error? = none ∧ s.error? = none := by
  cases h : r.error? <;> simp [andThen, h]

theorem found_prefix_andThen (r s : Run α) : r.found <+: (r.andThen s).found := by
  cases h : r.error? <;> simp [andThen, h]

theorem results_one_andThen (x : α) : ((one x).andThen r).results = .ok x :: r.results :=
  rfl

theorem length_results_le (r : Run α) : r.results.length ≤ r.found.length + 1 := by
  cases h : r.error? <;> simp [results, h]

-- An error is the last result.
theorem results_after {n k : Nat} (h : r.results[n]? = none ∨ ∃ e, r.results[n]? = some (.error e))
    (hk : n < k) : r.results[k]? = none := by
  apply List.getElem?_eq_none
  cases h
  case inl h => exact Nat.le_trans (List.getElem?_eq_none_iff.mp h) (Nat.le_of_lt hk)
  case inr h =>
    have ⟨e, he⟩ := h
    have hn : r.found.length ≤ n := by
      apply Nat.le_of_not_lt
      intro hn
      simp [results, List.getElem?_append, hn] at he
    have := r.length_results_le
    omega

theorem all_one_andThen (x : α) : ((one x).andThen r).all = r.all.map (x :: ·) := by
  cases h : r.error? <;> simp [all, one, andThen, h, Except.map]

theorem all_map (f : α → β) (r : Run α) : (r.map f).all = r.all.map (·.map f) := by
  cases h : r.error? <;> simp [all, map, h, Except.map]

theorem all_eq_ok_iff {xs : List α} : r.all = .ok xs ↔ r.error? = none ∧ r.found = xs := by
  cases h : r.error? <;> simp [all, h]

theorem once_of_found {x : α} {rest : List α} (h : r.found = x :: rest) : r.once = one x := by
  rw [once, h]

theorem once_of_found_eq_nil (h : r.found = []) : r.once = r := by
  rw [once, h]

-- That is the first of its results.
theorem results_once (r : Run α) : r.once.results = r.results.take 1 := by
  cases h : r.found with
  | nil =>
    rw [once_of_found_eq_nil h]
    cases he : r.error? <;> simp [results, h, he]
  | cons x rest =>
    rw [once_of_found h]
    simp [results, one, h]

theorem all_once (r : Run α) : r.once.all = r.first?.map Option.toList := by
  cases h : r.found with
  | nil =>
    rw [once_of_found_eq_nil h]
    cases he : r.error? <;> simp [all, first?, h, he, Except.map]
  | cons x rest =>
    rw [once_of_found h, first?, h]
    rfl

-- A run that succeeds finds its first result first.
theorem first?_of_all {xs : List α} (h : r.all = .ok xs) : r.first? = .ok xs.head? := by
  have ⟨he, hf⟩ := all_eq_ok_iff.mp h
  cases xs <;> simp [first?, he, hf]

theorem inTurn_append : inTurn f (xs ++ ys) = (inTurn f xs).andThen (inTurn f ys) := by
  induction xs with
  | nil => exact (nothing_andThen _).symm
  | cons x rest ih => simp only [List.cons_append, inTurn, ih, andThen_assoc]

theorem inTurn_map (h : γ → α) (zs : List γ) : inTurn f (zs.map h) = inTurn (f ∘ h) zs := by
  induction zs with
  | nil => rfl
  | cons z rest ih => simp only [List.map_cons, inTurn, ih]; rfl

theorem inTurn_congr (h : ∀ x ∈ xs, f x = g x) : inTurn f xs = inTurn g xs := by
  induction xs with
  | nil => rfl
  | cons x rest ih =>
    have ⟨hx, hr⟩ := List.forall_mem_cons.mp h
    simp only [inTurn, hx, ih hr]

theorem inTurn_singleton (x : α) : inTurn f [x] = f x :=
  andThen_nothing _

-- A list is run without an error only if all of its members are.
theorem error?_inTurn_eq_none : (inTurn f xs).error? = none ↔ ∀ x ∈ xs, (f x).error? = none := by
  induction xs with
  | nil => simp [inTurn, nothing]
  | cons x rest ih => simp [inTurn, error?_andThen_eq_none, ih]

theorem found_inTurn (h : (inTurn f xs).error? = none) :
    (inTurn f xs).found = xs.flatMap fun x => (f x).found := by
  induction xs with
  | nil => rfl
  | cons x rest ih =>
    have ⟨hx, hr⟩ := error?_andThen_eq_none.mp h
    rw [inTurn, andThen_of_error?_eq_none hx, List.flatMap_cons, ih hr]

theorem inTurn_eq_found {k : α → List β} (h : ∀ x ∈ xs, f x = ⟨k x, none⟩) :
    inTurn f xs = ⟨xs.flatMap k, none⟩ := by
  induction xs with
  | nil => rfl
  | cons x rest ih =>
    have ⟨hx, hr⟩ := List.forall_mem_cons.mp h
    rw [inTurn, hx, andThen_of_error?_eq_none rfl, ih hr, List.flatMap_cons]

-- A list fails as one of its members does.
theorem error?_inTurn_eq_some {e : Error} (h : (inTurn f xs).error? = some e) :
    ∃ x ∈ xs, (f x).error? = some e := by
  induction xs with
  | nil => cases h
  | cons x rest ih =>
    cases hx : (f x).error? with
    | some e' =>
      rw [inTurn, andThen_of_error? hx, hx] at h
      exact ⟨x, List.mem_cons_self, hx.trans h⟩
    | none =>
      rw [inTurn, andThen_of_error?_eq_none hx] at h
      have ⟨z, hz, he⟩ := ih h
      exact ⟨z, List.mem_cons_of_mem _ hz, he⟩

theorem mem_found_inTurn {y : β} (h : y ∈ (inTurn f xs).found) : ∃ x ∈ xs, y ∈ (f x).found := by
  induction xs with
  | nil => cases h
  | cons x rest ih =>
    simp only [inTurn, andThen] at h
    split at h
    case _ => exact ⟨x, List.mem_cons_self, h⟩
    case _ =>
      cases List.mem_append.mp h
      case inl h => exact ⟨x, List.mem_cons_self, h⟩
      case inr h =>
        have ⟨z, hz, h⟩ := ih h
        exact ⟨z, List.mem_cons_of_mem _ hz, h⟩

theorem mem_found_bind {y : β} (h : y ∈ (r.bind f).found) : ∃ x ∈ r.found, y ∈ (f x).found := by
  have hf : (r.bind f).found = (inTurn f r.found).found := by
    cases he : (inTurn f r.found).error? <;> simp [bind, andThen, he]
  exact mem_found_inTurn (hf ▸ h)

-- Runs that fail where others do and find less than they do in turn.
theorem inTurn_sub {k : α → Run γ} {h : β → γ}
    (hs : ∀ x ∈ xs, (f x).error? = (k x).error? ∧ ∀ y ∈ (f x).found, h y ∈ (k x).found) :
    (inTurn f xs).error? = (inTurn k xs).error? ∧
      ∀ y ∈ (inTurn f xs).found, h y ∈ (inTurn k xs).found := by
  induction xs with
  | nil => simp [inTurn, nothing]
  | cons x rest ih =>
    have ⟨⟨he, hx⟩, hr⟩ := List.forall_mem_cons.mp hs
    have ⟨hre, hrf⟩ := ih hr
    cases hk : (k x).error? with
    | some e =>
      rw [inTurn, inTurn, andThen_of_error? (he.trans hk), andThen_of_error? hk]
      exact ⟨he, hx⟩
    | none =>
      rw [inTurn, inTurn, andThen_of_error?_eq_none (he.trans hk), andThen_of_error?_eq_none hk]
      refine ⟨hre, fun y hy => ?_⟩
      cases List.mem_append.mp hy
      case inl hy => exact List.mem_append_left _ (hx y hy)
      case inr hy => exact List.mem_append_right _ (hrf y hy)

theorem mem_found_of_results {x : α} (h : .ok x ∈ r.results) : x ∈ r.found := by
  cases he : r.error? <;> simpa [results, he] using h

theorem mem_results_of_found {x : α} (h : x ∈ r.found) : .ok x ∈ r.results := by
  simp [results, h]

theorem bind_of_error?_eq_none (h : r.error? = none) : r.bind f = inTurn f r.found := by
  simp only [bind, h]
  exact andThen_nothing _

theorem fail_bind (e : Error) : (fail e).bind f = fail e :=
  rfl

theorem one_bind (x : α) : (one x).bind f = f x := by
  rw [bind_of_error?_eq_none rfl]
  exact inTurn_singleton x

theorem bind_andThen (r s : Run α) : (r.andThen s).bind f = (r.bind f).andThen (s.bind f) := by
  cases h : r.error? with
  | some e =>
    have he : (r.bind f).error? ≠ none := by simp [bind, h, error?_andThen_eq_none]
    have ⟨e', he'⟩ := Option.ne_none_iff_exists'.mp he
    rw [andThen_of_error? h, andThen_of_error? he']
  | none =>
    rw [andThen_of_error?_eq_none h, bind_of_error?_eq_none h, bind, bind, inTurn_append,
      andThen_assoc]

theorem bind_inTurn (k : β → Run γ) (xs : List α) :
    (inTurn f xs).bind k = inTurn (fun x => (f x).bind k) xs := by
  induction xs with
  | nil => rfl
  | cons x rest ih => simp only [inTurn, bind_andThen, ih]

-- Where a run of runs succeeds, they all do.
theorem all_bind_eq_ok {zs : List β} (h : (r.bind f).all = .ok zs) :
    r.all = .ok r.found ∧ (∀ x ∈ r.found, (f x).all = .ok (f x).found) ∧
      zs = r.found.flatMap fun x => (f x).found := by
  have ⟨he, hz⟩ := all_eq_ok_iff.mp h
  have ⟨hf, hr⟩ := error?_andThen_eq_none.mp he
  rw [bind_of_error?_eq_none (r := r) hr, found_inTurn hf] at hz
  have hx := error?_inTurn_eq_none.mp hf
  exact ⟨all_eq_ok_iff.mpr ⟨hr, rfl⟩, fun x hm => all_eq_ok_iff.mpr ⟨hx x hm, rfl⟩, hz.symm⟩

theorem map_andThen (h : α → β) (r s : Run α) :
    (r.andThen s).map h = (r.map h).andThen (s.map h) := by
  cases he : r.error? <;> simp [andThen, map, he]

theorem map_inTurn (h : β → γ) (xs : List α) :
    (inTurn f xs).map h = inTurn (fun x => (f x).map h) xs := by
  induction xs with
  | nil => rfl
  | cons x rest ih => simp only [inTurn, map_andThen, ih]

end Run

end JsonQuery
