import JsonQuery.Proofs.Preorder
import JsonQuery.Query
import JsonQuery.Search.Pattern

namespace JsonQuery

theorem Visit.children_eq (u : Visit) :
    u.children = u.value.children.map fun m => ⟨u.location ++ [m.1], m.2⟩ := by
  cases hv : u.value <;> simp only [children, Json.children, hv, List.map_nil, List.map_map]
  case arr items => exact List.ext_getElem (by simp) fun i _ _ => by simp
  case obj ms    => rfl

namespace Search

variable {s : Search} {u : Visit} {rest : List Visit}

-- The values that a search still has to visit, those inside of others included.
def pending (s : Search) : List (Location × Json) :=
  s.stack.flatMap fun u => u.value.preorder u.location

-- Whether a search tells the location of a value. It does not tell that of the document itself.
def tells (s : Search) (n : Location × Json) : Bool := !n.1.isEmpty && s.finds ⟨n.1, n.2⟩

theorem tells_start {m : Matcher} {o : SearchOptions} {v x : Json} {l : Location} :
    (start m o v).tells (l, x) = true ↔ l ≠ [] ∧
      (o.keys = true ∧ (∃ k, l.getLast? = some (.key k) ∧ m.accepts o.caseSensitive (.str k) = true) ∨
        o.values = true ∧ m.accepts o.caseSensitive x = true) := by
  simp only [tells, finds, start, Bool.and_eq_true, Bool.or_eq_true]
  refine and_congr (by simp) (or_congr (and_congr_right' ?_) .rfl)
  cases l.getLast? with
  | none   => simp
  | some s => cases s <;> simp

theorem pending_of_stack (hs : s.stack = u :: rest) :
    s.pending = (u.location, u.value) :: pending { s with stack := u.children ++ rest } := by
  simp [pending, hs, Json.preorder_eq u.location u.value, u.children_eq, List.flatMap_map]

theorem next?_of_stack_eq_nil (hs : s.stack = []) : s.next? = none := by
  unfold next?
  split
  case _ => rfl
  case _ h => simp [hs] at h

theorem next?_of_stack (hs : s.stack = u :: rest) : s.next? =
    if s.options.maxDepth < u.location.length then
      some (.error (.tooDeep s.options.maxDepth), { s with stack := [] })
    else if s.tells (u.location, u.value) then
      some (.ok u.location, { s with stack := u.children ++ rest })
    else next? { s with stack := u.children ++ rest } := by
  rw [next?]
  split
  case _ h => simp [hs] at h
  case _ u' rest' h =>
    obtain ⟨e, e'⟩ := List.cons.inj (hs.symm.trans h)
    subst e e'
    rfl

theorem all_eq (s : Search) : s.all =
    match s.next? with
    | none               => .ok []
    | some (.error e, _) => .error e
    | some (.ok l, s')   => s'.all.map (l :: ·) := by
  rw [all]
  split <;> simp [*]

-- The values inside of one are visited right after it.
theorem all_of_stack (hs : s.stack = u :: rest) : s.all =
    if s.options.maxDepth < u.location.length then .error (.tooDeep s.options.maxDepth)
    else if s.tells (u.location, u.value) then
      (all { s with stack := u.children ++ rest }).map (u.location :: ·)
    else all { s with stack := u.children ++ rest } := by
  rw [all_eq, next?_of_stack hs]
  by_cases hd : s.options.maxDepth < u.location.length
  case pos => simp only [hd, if_true]
  case neg =>
    cases ht : s.tells (u.location, u.value)
    case false => simpa only [hd, if_false, Bool.false_eq_true] using (all_eq _).symm
    case true  => simp only [hd, if_false, if_true]

-- A search goes through its values in order. One that lies too deep ends it, and nothing is told of
-- what was found before.
theorem all_eq_pending (s : Search) : s.all =
    if s.pending.any fun n => s.options.maxDepth < n.1.length then
      .error (.tooDeep s.options.maxDepth)
    else .ok ((s.pending.filter s.tells).map (·.1)) := by
  generalize hn : s.pending = nodes
  induction nodes generalizing s with
  | nil =>
    cases hs : s.stack with
    | nil         => simp [all_eq, next?_of_stack_eq_nil hs]
    | cons u rest => simp [pending_of_stack hs] at hn
  | cons n nodes ih =>
    cases hs : s.stack with
    | nil         => simp [pending, hs] at hn
    | cons u rest =>
      obtain ⟨e, hr⟩ := List.cons.inj ((pending_of_stack hs).symm.trans hn)
      subst e
      have ht : tells { s with stack := u.children ++ rest } = s.tells := rfl
      rw [all_of_stack hs, ih _ hr, List.any_cons, List.filter_cons, ht]
      by_cases hd : s.options.maxDepth < u.location.length
      case pos => simp [hd]
      case neg =>
        simp only [hd, if_false, decide_false, Bool.false_or]
        cases s.tells (u.location, u.value)
        case false => rfl
        case true  =>
          simp only [if_true]
          split <;> rfl

end Search

namespace Json

variable {o : SearchOptions} {m : Matcher} {v x : Json} {l : Location}

theorem pending_start (m : Matcher) (o : SearchOptions) (v : Json) :
    (Search.start m o v).pending = v.preorder [] := by
  simp [Search.pending, Search.start]

theorem findPaths_eq (o : SearchOptions) (m : Matcher) (v : Json) : v.findPaths o m =
    if (v.preorder []).any fun n => o.maxDepth < n.1.length then .error (.tooDeep o.maxDepth)
    else .ok (((v.preorder []).filter (Search.start m o v).tells).map (·.1)) := by
  rw [findPaths, Search.all_eq_pending, pending_start]
  rfl

-- A search is a walk through all values of a document in pre-order that tells those that match, each
-- once and with the value that is there. A value that lies too deep makes it fail.
theorem find_eq_preorder (o : SearchOptions) (m : Matcher) (hv : v.WellFormed) :
    let found := (v.preorder []).filter (Search.start m o v).tells
    ((∃ l x, v.at? l = some x ∧ o.maxDepth < l.length) →
      v.findPaths o m = .error (.tooDeep o.maxDepth) ∧
      v.findValues o m = .error (.tooDeep o.maxDepth)) ∧
    ((∀ l x, v.at? l = some x → l.length ≤ o.maxDepth) →
      v.findPaths o m = .ok (found.map (·.1)) ∧ v.findValues o m = .ok found) ∧
    (∀ l x, (l, x) ∈ found ↔ l ≠ [] ∧ v.at? l = some x ∧
      (o.keys = true ∧ (∃ k, l.getLast? = some (.key k) ∧ m.accepts o.caseSensitive (.str k) = true) ∨
        o.values = true ∧ m.accepts o.caseSensitive x = true)) ∧
    (found.map (·.1)).Nodup ∧
    (∀ pattern, (o.mode = .exact → Matcher.ofPattern o pattern = .ok (.exact pattern)) ∧
      (o.mode = .contains → Matcher.ofPattern o pattern = .ok (.contains pattern))) := by
  intro found
  have hall := Search.all_eq_pending (.start m o v)
  have hmem {l x} : (l, x) ∈ v.preorder [] ↔ v.at? l = some x := by
    simp [mem_preorder hv.distinct]
  have hfound {l x} (h : (l, x) ∈ found) : v.at? l = some x := hmem.mp (List.mem_filter.mp h).1
  rw [pending_start] at hall
  refine ⟨?deep, ?shallow, fun l x => ?told, ?once, fun pattern => ⟨?exact, ?contains⟩⟩
  case deep =>
    rintro ⟨l, x, hl, hd⟩
    have hany : ((v.preorder []).any fun n => o.maxDepth < n.1.length) = true :=
      List.any_eq_true.mpr ⟨(l, x), hmem.mpr hl, by simpa using hd⟩
    have hp : v.findPaths o m = .error (.tooDeep o.maxDepth) := by
      rw [findPaths, hall]
      exact if_pos hany
    exact ⟨hp, by rw [findValues, hp]; rfl⟩
  case shallow =>
    intro hd
    have hany : ¬ ((v.preorder []).any fun n => o.maxDepth < n.1.length) = true := by
      simp only [List.any_eq_true, decide_eq_true_eq, Prod.exists, not_exists, not_and, Nat.not_lt]
      exact fun l x h => hd l x (hmem.mp h)
    have hp : v.findPaths o m = .ok (found.map (·.1)) := by
      rw [findPaths, hall]
      exact if_neg hany
    have hx : found.map (fun n => (n.1, (v.at? n.1).getD .null)) = found.map id :=
      List.map_congr_left fun n hn => by simp [hfound hn]
    refine ⟨hp, ?_⟩
    rw [List.map_id] at hx
    simp [findValues, hp, Except.map, Function.comp_def, hx]
  case told =>
    rw [List.mem_filter, hmem, Search.tells_start]
    exact and_left_comm
  case once => exact (nodup_preorder hv.distinct).sublist (List.filter_sublist.map _)
  case exact =>
    intro ho
    simp [Matcher.ofPattern, ho]
  case contains =>
    intro ho
    simp [Matcher.ofPattern, ho]

theorem find_eq_preorder_nested :
    let v : Json := .obj [("a", .arr [.str "a", .obj [("b", .str "a")]]), ("c", .null)]
    let m : Matcher := .exact (.str "a")
    v.findValues .default m = .ok
      [([.key "a"], .arr [.str "a", .obj [("b", .str "a")]]), ([.key "a", .index 0], .str "a"),
        ([.key "a", .index 1, .key "b"], .str "a")] ∧
    v.findPaths { SearchOptions.default with maxDepth := 2 } m = .error (.tooDeep 2) := by
  intro v m
  have hv : v.WellFormed := by
    simp [v, WellFormed, WellFormedMembers, WellFormedItems, Members.keys]
  have hd : ∀ n ∈ v.preorder [], n.1.length ≤ 100 := by decide
  obtain ⟨_, hs, _⟩ := find_eq_preorder .default m hv
  obtain ⟨hf, _⟩ := find_eq_preorder { SearchOptions.default with maxDepth := 2 } m hv
  refine ⟨(hs fun l x h => ?_).2.trans rfl, (hf ?_).1⟩
  case refine_1 => exact hd (l, x) ((mem_preorder hv.distinct).mpr ⟨l, rfl, h⟩)
  case refine_2 => exact ⟨[.key "a", .index 1, .key "b"], _, rfl, by decide⟩

end Json

end JsonQuery
