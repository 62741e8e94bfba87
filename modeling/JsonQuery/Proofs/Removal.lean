import JsonQuery.Edit.Write
import JsonQuery.Proofs.Children
import JsonQuery.Proofs.Concrete
import JsonQuery.Proofs.Without
import JsonQuery.Proofs.Writes

namespace JsonQuery

section

variable {α : Type} [BEq α] {a b : α}

theorem eraseReps_cons_cons {l : List α} :
    (a :: b :: l).eraseReps = if a == b then (a :: l).eraseReps else a :: (b :: l).eraseReps := by
  have loop_eq (r : α → α → Bool) (a : α) (l acc : List α) :
      List.eraseRepsBy.loop r a l acc = acc.reverse ++ List.eraseRepsBy.loop r a l [] := by
    induction l generalizing a acc with
    | nil => simp [List.eraseRepsBy.loop]
    | cons b l ih =>
      simp only [List.eraseRepsBy.loop]
      cases r a b with
      | true  => exact ih a acc
      | false => simp [ih b (a :: acc), ih b [a]]
  simp only [List.eraseReps, List.eraseRepsBy, List.eraseRepsBy.loop]
  cases h : a == b
  case true  => simp
  case false => simp [loop_eq _ b l [a]]

variable [LawfulBEq α]

theorem mem_eraseReps {l : List α} : a ∈ l.eraseReps ↔ a ∈ l := by
  cases l with
  | nil => rfl
  | cons b l =>
    induction l generalizing b with
    | nil => rfl
    | cons c l ih =>
      rw [eraseReps_cons_cons]
      split
      case isTrue e =>
        cases eq_of_beq e
        simp [ih c]
      case isFalse => rw [List.mem_cons, ih c, List.mem_cons (l := c :: l)]

-- A sorted list whose repetitions are erased has every member once.
theorem pairwise_eraseReps {l : List α} {R : α → α → Prop} (anti : ∀ a b, R a b → R b a → a = b)
    (h : l.Pairwise R) : l.eraseReps.Pairwise fun a b => R a b ∧ a ≠ b := by
  cases l with
  | nil => exact .nil
  | cons b l =>
    induction l generalizing b with
    | nil => exact List.pairwise_singleton _ b
    | cons c l ih =>
      obtain ⟨hb, hl⟩ := List.pairwise_cons.mp h
      rw [eraseReps_cons_cons]
      split
      case isTrue e =>
        cases eq_of_beq e
        exact ih c hl
      case isFalse hne =>
        have hne : b ≠ c := by simpa using hne
        refine List.pairwise_cons.mpr ⟨fun x hx => ?_, ih c hl⟩
        have hx := mem_eraseReps.mp hx
        refine ⟨hb x hx, fun e => hne ?_⟩
        subst e
        cases List.mem_cons.mp hx
        case inl e => exact e
        case inr hx => exact anti b c (hb c List.mem_cons_self) ((List.pairwise_cons.mp hl).1 b hx)

end

namespace Path

variable {ls : List Location} {l : Location}

theorem mem_removalOrder : l ∈ removalOrder ls ↔ l ∈ ls := by
  rw [removalOrder, List.mem_reverse, mem_eraseReps, List.mem_mergeSort]

-- Every location comes after all locations behind it.
theorem pairwise_removalOrder (ls : List Location) :
    (removalOrder ls).Pairwise fun l m => m.compare l = .lt := by
  have isLE_iff {l m : Location} : (l.compare m != .gt) = true ↔ (l.compare m).isLE = true := by
    cases l.compare m <;> simp
  have hs : (ls.mergeSort fun l m => l.compare m != .gt).Pairwise
      fun l m => (l.compare m != .gt) = true := by
    refine List.pairwise_mergeSort (fun l m k h h' => ?trans) (fun l m => ?total) ls
    case trans => exact isLE_iff.mpr (Std.TransCmp.isLE_trans (isLE_iff.mp h) (isLE_iff.mp h'))
    case total =>
      have e : l.compare m = (m.compare l).swap := Std.OrientedCmp.eq_swap
      rw [e]
      cases m.compare l <;> rfl
  have anti (l m : Location) (h : (l.compare m != .gt) = true) (h' : (m.compare l != .gt) = true) :
      l = m :=
    Std.LawfulEqCmp.eq_of_compare
      (Std.OrientedCmp.isLE_antisymm (isLE_iff.mp h) (isLE_iff.mp h'))
  have lt {l m : Location} (h : (l.compare m != .gt) = true ∧ l ≠ m) : l.compare m = .lt := by
    have hne : l.compare m ≠ .eq := fun e => h.2 (Std.LawfulEqCmp.eq_of_compare e)
    cases hc : l.compare m <;> simp_all
  rw [removalOrder, List.pairwise_reverse]
  exact (pairwise_eraseReps anti hs).imp lt

end Path

namespace Json

variable {d : Removal} {ls ms : List Location} {v c : Json} {items : List Json}
  {members : List (String × Json)} {s : Step} {l m : Location} {k : String} {i n : Nat}

-- Only the locations that lead to the elements count.
theorem removeItems_congr (h : ∀ j, i ≤ j → ([.index j] ∈ ls ↔ [.index j] ∈ ms) ∧
      Location.below (.index j) ls = Location.below (.index j) ms) :
    removeItems d ls i items = removeItems d ms i items := by
  induction items generalizing i with
  | nil => rfl
  | cons x rest ih =>
    obtain ⟨hm, hb⟩ := h i (Nat.le_refl i)
    have ih := ih fun j hj => h j (Nat.le_of_succ_le hj)
    simp only [removeItems, hm, hb, ih]

theorem removeAll_append_nil (d : Removal) (ls : List Location) (v : Json) :
    v.removeAll d (ls ++ [[]]) = v.removeAll d ls := by
  cases v
  case arr items =>
    rw [removeAll, removeAll]
    exact congrArg arr (removeItems_congr fun j _ => ⟨by simp, Location.below_snoc_nil _ _⟩)
  case obj members =>
    have hk : lastKeys (ls ++ [[]]) = lastKeys ls := by simp [lastKeys]
    simp only [removeAll_obj, hk, Location.below_snoc_nil]
  all_goals rfl

-- The first elements of an array stay where they are while elements behind them are removed.
theorem eraseIdx_removeItems (hi : n < items.length) (hn : ∀ j, [.index j] ∈ ls → i + n < j) :
    n < (removeItems d ls i items).length ∧ (removeItems d ls i items).eraseIdx n =
      removeItems d (ls ++ [[.index (i + n)]]) i items := by
  induction items generalizing i n with
  | nil => simp at hi
  | cons x rest ih =>
    have h : [.index i] ∉ ls := fun h => by
      have := hn i h
      omega
    cases n with
    | zero =>
      refine ⟨by simp [removeItems, h], ?_⟩
      have e : removeItems d ls (i + 1) rest =
          removeItems d (ls ++ [[.index i]]) (i + 1) rest := by
        refine removeItems_congr fun j hj => ⟨?_, ?_⟩
        case refine_1 =>
          have : j ≠ i := by omega
          simp [this]
        case refine_2 =>
          have : Step.index i ≠ .index j := fun e => by
            cases e
            omega
          rw [Location.below_snoc_of_ne this]
      simp [removeItems, h, e]
    | succ n =>
      have hij : i + (n + 1) = i + 1 + n := by omega
      obtain ⟨hlt, e⟩ := ih (by simpa using hi) (hij ▸ hn)
      have hne : Step.index (i + 1 + n) ≠ .index i := fun e => by
        have := Step.index.inj e
        omega
      have h' : [.index i] ∉ ls ++ [[.index (i + 1 + n)]] := by
        simp [h]
        omega
      rw [hij]
      simp only [removeItems, h, h', if_false, List.length_cons, List.eraseIdx_cons_succ, e,
        Location.below_snoc_of_ne hne, and_true]
      omega

theorem removeChild?_index (hi : i < items.length) (hn : ∀ j, [.index j] ∈ ls → i < j) :
    ((arr items).removeAll d ls).removeChild? (.index i) =
      some ((arr items).removeAll d (ls ++ [[.index i]])) := by
  have hn : ∀ j, [.index j] ∈ ls → 0 + i < j := by simpa using hn
  obtain ⟨hlt, e⟩ := eraseIdx_removeItems (d := d) hi hn
  rw [Nat.zero_add] at e
  simp only [removeAll, removeChild?, hlt, if_true, e]

theorem removeChild?_key (hv : (obj members).WellFormed) (hk : k ∈ Members.keys members)
    (hn : [.key k] ∉ ls) : ((obj members).removeAll .sequence ls).removeChild? (.key k) =
      some ((obj members).removeAll .sequence (ls ++ [[.key k]])) := by
  have hkeys : lastKeys (ls ++ [[.key k]]) = lastKeys ls ++ [k] := by simp [lastKeys]
  have hvals : Members.mapValues
      (fun j x => x.removeAll .sequence (Location.below (.key j) (ls ++ [[.key k]]))) members =
      Members.mapValues (fun j x => x.removeAll .sequence (Location.below (.key j) ls)) members := by
    refine Members.mapValues_congr fun j x _ => ?_
    by_cases hj : Step.key k = .key j
    case pos => rw [hj, Location.below_snoc_self, removeAll_append_nil]
    case neg => rw [Location.below_snoc_of_ne hj]
  have hc : ((obj members).removeAll .sequence ls).child? (.key k) ≠ none := by
    rw [child?_removeAll_key exact_sequence hv, if_neg hn]
    simpa [child?, Members.get?_eq_none_iff] using hk
  rw [removeAll_obj] at hc ⊢
  rw [removeAll_obj, hvals, hkeys]
  simp only [child?, Removal.sequence] at hc
  simp [removeChild?, Members.contains, Option.isSome_iff_ne_none, hc, Removal.sequence]

-- Locations of more than one step leave the children of a value in their places.
theorem removeAll_eq_mapChildren (h : ∀ l ∈ ls, l.length ≠ 1) : v.removeAll .sequence ls =
    v.mapChildren fun s x => x.removeAll .sequence (Location.below s ls) := by
  have hs (s : Step) : [s] ∉ ls := fun hs => h [s] hs rfl
  cases v
  case arr items =>
    have hf : ((items.zipIdx 0).filter fun m => [.index m.2] ∉ ls) = items.zipIdx :=
      List.filter_eq_self.mpr fun m _ => by simp [hs]
    rw [removeAll, removeItems_eq, hf]
    exact congrArg arr (List.ext_getElem (by simp) fun i _ _ => by simp)
  case obj members =>
    have hk : lastKeys ls = [] :=
      List.eq_nil_iff_forall_not_mem.mpr fun k hk => hs _ (mem_lastKeys.mp hk)
    rw [removeAll_obj, hk]
    rfl
  all_goals rfl

theorem run?_remove_singleton (s : Step) (v : Json) : (Change.remove [s]).run? v = v.removeChild? s :=
  rfl

-- One more removal after removals of locations of the same length that come later in the document.
theorem run?_remove_removeAll (hv : v.WellFormed) (hne : l ≠ []) (hl : ∀ m ∈ ls, m.length = l.length)
    (ho : ∀ m ∈ ls, l.compare m = .lt) (hc : v.at? l = some c) :
    (Change.remove l).run? (v.removeAll .sequence ls) =
      some (v.removeAll .sequence (ls ++ [l])) := by
  induction l generalizing v ls with
  | nil => exact absurd rfl hne
  | cons s rest ih =>
    rw [at?_cons] at hc
    obtain ⟨x, hx, hc⟩ := Option.bind_eq_some_iff.mp hc
    by_cases hr : rest = []
    case pos =>
      subst hr
      rw [run?_remove_singleton]
      cases v <;> cases s <;> simp only [child?, reduceCtorEq] at hx
      case arr.index items i =>
        obtain ⟨hi, _⟩ := List.getElem?_eq_some_iff.mp hx
        refine removeChild?_index hi fun j hj => ?_
        have h : (compare i j).then .eq = .lt := ho _ hj
        rw [Ordering.then_eq] at h
        exact Nat.compare_eq_lt.mp h
      case obj.key members k =>
        refine removeChild?_key hv (Members.mem_keys_of_get? hx) fun hk => ?_
        have h := ho _ hk
        simp [Std.ReflCmp.compare_self] at h
    case neg =>
      have h2 : (s :: rest).length ≠ 1 := by simpa using hr
      have hl' : ∀ m ∈ ls ++ [s :: rest], m.length ≠ 1 := by
        intro m hm
        cases List.mem_append.mp hm
        case inl hm => exact hl m hm ▸ h2
        case inr hm => exact List.mem_singleton.mp hm ▸ h2
      rw [removeAll_eq_mapChildren fun m hm => hl m hm ▸ h2, removeAll_eq_mapChildren hl',
        Change.run?_remove_cons hr]
      refine alterChild?_mapChildren hv hx ?self fun t y ht => ?other
      case other =>
        rw [Location.below_snoc_of_ne ht.symm]
      case self =>
        rw [Location.below_snoc_self]
        refine ih (hv.child? hx) hr (Location.length_of_mem_below hl) (fun m hm => ?_) hc
        have h : (s.compare s).then (Location.compare rest m) = .lt := ho _ (Location.mem_below.mp hm)
        have e : s.compare s = .eq := Std.ReflCmp.compare_self
        rwa [e, Ordering.eq_then] at h

theorem applyFrom_remove {after : List Location} (number : Nat) (before : List Location)
    (hv : v.WellFormed) (hne : ∀ l ∈ before ++ after, l ≠ [])
    (hl : ∀ l ∈ before ++ after, ∀ m ∈ before ++ after, m.length = l.length)
    (ho : (before ++ after).Pairwise fun l m => m.compare l = .lt)
    (hc : ∀ l ∈ after, (v.at? l).isSome) :
    Change.applyFrom number (v.removeAll .sequence before) (after.map .remove) =
      .ok (v.removeAll .sequence (before ++ after)) := by
  induction after generalizing before number with
  | nil => simp [Change.applyFrom]
  | cons l rest ih =>
    obtain ⟨hl', hr⟩ := List.forall_mem_cons.mp hc
    obtain ⟨c, hc⟩ := Option.isSome_iff_exists.mp hl'
    have hrun := run?_remove_removeAll hv (hne l (by simp))
      (fun m hm => hl l (by simp) m (by simp [hm]))
      (fun m hm => (List.pairwise_append.mp ho).2.2 m hm l List.mem_cons_self) hc
    simp only [List.map_cons, Change.applyFrom, hrun]
    simpa using ih (number + 1) (before ++ [l]) (by simpa using hne) (by simpa using hl)
      (by simpa using ho) hr

theorem run?_remove_of_beyond (hl : ∀ m ∈ ls, m.length = l.length) (h : v.Beyond l) :
    (Change.remove l).run? (v.removeAll .sequence ls) = none := by
  obtain ⟨m, i, items, e, hm, hi⟩ := h
  subst e
  induction m generalizing v ls with
  | nil =>
    cases hm
    have hle : (removeItems .sequence ls 0 items).length ≤ items.length := by
      rw [removeItems_eq, List.length_map]
      exact Nat.le_trans (List.length_filter_le ..) (by simp)
    rw [List.nil_append, run?_remove_singleton, removeAll, removeChild?, if_neg (by omega)]
  | cons s m ih =>
    rw [at?_cons] at hm
    obtain ⟨c, hc, hm⟩ := Option.bind_eq_some_iff.mp hm
    have h1 : ∀ n ∈ ls, n.length ≠ 1 := fun n hn => by simp [hl n hn]
    rw [List.cons_append, Change.run?_remove_cons (by simp), removeAll_eq_mapChildren h1]
    refine alterChild?_eq_none ?_ (ih hm (Location.length_of_mem_below (s := s) hl))
    rw [child?_mapChildren, hc, Option.map_some]

-- Removals fail at the first location that leads out of its array.
theorem applyFrom_remove_of_beyond {after : List Location} (number : Nat) (before : List Location)
    (hv : v.WellFormed) (hne : ∀ l ∈ before ++ after, l ≠ [])
    (hl : ∀ l ∈ before ++ after, ∀ m ∈ before ++ after, m.length = l.length)
    (ho : (before ++ after).Pairwise fun l m => m.compare l = .lt)
    (hc : ∀ l ∈ after, (v.at? l).isSome ∨ v.Beyond l) (hb : ∃ l ∈ after, v.at? l = none) :
    ∃ n l, Change.applyFrom number (v.removeAll .sequence before) (after.map .remove) =
      .error (.unappliable n l) := by
  induction after generalizing before number with
  | nil => simp at hb
  | cons l rest ih =>
    obtain ⟨hl', hr⟩ := List.forall_mem_cons.mp hc
    have hlen : ∀ m ∈ before, m.length = l.length := fun m hm => hl l (by simp) m (by simp [hm])
    cases hc : v.at? l with
    | some c =>
      have hb : ∃ m ∈ rest, v.at? m = none := by simpa [hc] using hb
      have hrun := run?_remove_removeAll hv (hne l (by simp)) hlen
        (fun m hm => (List.pairwise_append.mp ho).2.2 m hm l List.mem_cons_self) hc
      obtain ⟨n, m, he⟩ := ih (number + 1) (before ++ [l]) (by simpa using hne) (by simpa using hl)
        (by simpa using ho) hr hb
      exact ⟨n, m, by simpa [Change.applyFrom, hrun] using he⟩
    | none =>
      have hb : v.Beyond l := by simpa [hc] using hl'
      have hrun := run?_remove_of_beyond hlen hb
      exact ⟨number, l, by simp [Change.applyFrom, hrun, Change.location]⟩

end Json

namespace Path

variable {o : Options} {limit : Nat} {v r : Json} {p : Path} {l : Location} {ls : List Location}

theorem at?_or_beyond (hv : v.WellFormed) (hw : ∀ s ∈ p, s.fits = true)
    (ht : targets limit false v p = .ok ls) (hl : l ∈ ls) :
    (v.at? l).isSome ∨ v.Beyond l := by
  cases mem_targets ht hl
  case inl h => exact .inl (h.2 ▸ rfl)
  case inr h =>
    obtain ⟨q, s, hp, u, hu, hl⟩ := h
    subst hp
    obtain ⟨hq, hs⟩ := List.forall_mem_append.mp hw
    rw [View.locations_of_not_absent] at hl
    obtain ⟨t, ht, e⟩ := List.mem_map.mp hl
    exact e ▸ ((View.Within.root v).expand hu).at?_or_beyond hv
      ((View.counted_root v).expand (View.Within.root v) hq hu) (hs s (by simp)) ht

theorem ne_nil_of_mem_targets {absent : Bool} (hp : p ≠ [])
    (ht : targets limit absent v p = .ok ls) (hl : l ∈ ls) : l ≠ [] := by
  cases mem_targets ht hl
  case inl h => exact absurd h.1 hp
  case inr h =>
    obtain ⟨_, _, _, _, _, hl⟩ := h
    intro e
    simpa [e] using View.length_of_mem_locations hl

-- Only the location that a path of keys and indices resolves to is removed.
theorem removals_of_isConcrete (hc : p.isConcrete = true) (hr : removals o v p = .ok ls) :
    ls = ((View.root v).resolve p).toOption.toList := by
  simp only [removals, hc, if_true] at hr
  cases h : (View.root v).resolve p with
  | ok l    => simpa [h, Except.toOption] using hr.symm
  | error e =>
    simp only [h] at hr
    split at hr
    case isTrue  => simpa [Except.toOption] using hr.symm
    case isFalse => cases hr

-- What is removed is what the path leads to.
theorem targets_of_removals (hv : v.WellFormed) (hd : p.length ≤ o.maxDepth)
    (hr : removals o v p = .ok ls) : targets o.maxDepth false v p = .ok ls := by
  cases hc : p.isConcrete
  case true  => rw [targets_of_isConcrete hv hc hd, removals_of_isConcrete hc hr]
  case false => simpa [removals, hc] using hr

-- The depth limit does not count for a path of keys and indices.
theorem targets_of_removals_of_isConcrete (hv : v.WellFormed) (hc : p.isConcrete = true)
    (hr : removals o v p = .ok ls) : targets p.length false v p = .ok ls := by
  rw [targets_of_isConcrete hv hc (Nat.le_refl _), removals_of_isConcrete hc hr]

theorem exists_targets_of_removals (hv : v.WellFormed) (hr : removals o v p = .ok ls) :
    ∃ limit, targets limit false v p = .ok ls := by
  cases hc : p.isConcrete
  case true  => exact ⟨_, targets_of_removals_of_isConcrete hv hc hr⟩
  case false => exact ⟨o.maxDepth, by simpa [removals, hc] using hr⟩

theorem delete_of_removals (ha : ∀ s ∈ p, s.isAddressable = true) (hp : p ≠ [])
    (hr : removals o v p = .ok ls) :
    p.delete o v = Change.applyAll v ((removalOrder ls).map .remove) := by
  have he : p.isEmpty = false := by simpa using hp
  simp [delete, ensureAddressable_eq_ok ha, hr, bind, Except.bind, he]

theorem exists_removals_of_delete (h : p.delete o v = .ok r) : ∃ ls, removals o v p = .ok ls := by
  cases hr : removals o v p with
  | ok ls   => exact ⟨ls, rfl⟩
  | error e =>
    simp only [delete, hr, bind, Except.bind] at h
    split at h
    case _ => cases h
    case _ => split at h <;> cases h

theorem at?_of_staysWithin (hv : v.WellFormed) (hw : ∀ s ∈ p, s.fits = true)
    (hs : (View.root v).staysWithin p = true) (ht : targets limit false v p = .ok ls)
    (hl : l ∈ ls) : (v.at? l).isSome := by
  have e := Except.ok.inj (ht.symm.trans (targets_eq_expand hv hw hs (length_le_of_targets ht)))
  obtain ⟨u, hu, hl⟩ := List.mem_map.mp (e ▸ hl)
  simp [← hl, ((View.Within.root v).expand hu).at?_eq]

theorem length_of_mem_removalOrder (hp : p ≠ []) (ht : targets limit false v p = .ok ls) :
    (∀ l ∈ removalOrder ls, l ≠ []) ∧
      ∀ l ∈ removalOrder ls, ∀ m ∈ removalOrder ls, m.length = l.length :=
  ⟨fun _ hl => ne_nil_of_mem_targets hp ht (mem_removalOrder.mp hl), fun _ hl _ hm =>
    length_eq_of_mem_targets ht (mem_removalOrder.mp hl) (mem_removalOrder.mp hm)⟩

theorem delete_eq_removeAll (hv : v.WellFormed) (ha : ∀ s ∈ p, s.isAddressable = true) (hp : p ≠ [])
    (hr : removals o v p = .ok ls) (hc : ∀ l ∈ ls, (v.at? l).isSome) :
    p.delete o v = .ok (v.removeAll .sequence (removalOrder ls)) := by
  obtain ⟨limit, ht⟩ := exists_targets_of_removals hv hr
  obtain ⟨hne, hlen⟩ := length_of_mem_removalOrder hp ht
  have h := Json.applyFrom_remove 0 [] hv hne hlen (pairwise_removalOrder ls) fun l hl =>
    hc l (mem_removalOrder.mp hl)
  rw [Json.removeAll_nil fun _ => rfl] at h
  exact (delete_of_removals ha hp hr).trans h

theorem delete_eq_error (hv : v.WellFormed) (ha : ∀ s ∈ p, s.isAddressable = true)
    (hw : ∀ s ∈ p, s.fits = true) (hp : p ≠ []) (hr : removals o v p = .ok ls)
    (hb : ∃ l ∈ ls, v.at? l = none) : ∃ n l, p.delete o v = .error (.unappliable n l) := by
  obtain ⟨limit, ht⟩ := exists_targets_of_removals hv hr
  obtain ⟨hne, hlen⟩ := length_of_mem_removalOrder hp ht
  obtain ⟨l, hl, hn⟩ := hb
  have h := Json.applyFrom_remove_of_beyond 0 [] hv hne hlen (pairwise_removalOrder ls)
    (fun l hl => at?_or_beyond hv hw ht (mem_removalOrder.mp hl)) ⟨l, mem_removalOrder.mpr hl, hn⟩
  rw [Json.removeAll_nil fun _ => rfl] at h
  rwa [delete_of_removals ha hp hr]

theorem eq_removeAll_of_delete (hv : v.WellFormed) (ha : ∀ s ∈ p, s.isAddressable = true)
    (hw : ∀ s ∈ p, s.fits = true) (hp : p ≠ []) (hr : removals o v p = .ok ls)
    (h : p.delete o v = .ok r) :
    (∀ l ∈ ls, (v.at? l).isSome) ∧ r = v.removeAll .sequence (removalOrder ls) := by
  by_cases hc : ∀ l ∈ ls, (v.at? l).isSome
  case pos => exact ⟨hc, Except.ok.inj (h.symm.trans (delete_eq_removeAll hv ha hp hr hc))⟩
  case neg =>
    obtain ⟨n, l, he⟩ := delete_eq_error hv ha hw hp hr (by simpa using hc)
    simp [he] at h

-- A deletion removes all locations of its path at once. Its removals are applied one after another,
-- the last location first, and so none of them moves a location that is still to be removed. One that
-- cannot be applied is of a location that does not exist, and only a slice that leads out of its array
-- leads there.
theorem delete_simultaneous (o : Options) (hv : v.WellFormed)
    (ha : ∀ s ∈ p, s.isAddressable = true) (hw : ∀ s ∈ p, s.fits = true) (hp : p ≠ []) :
    (∀ r, p.delete o v = .ok r → ∃ ls, removals o v p = .ok ls ∧ Json.Removed ls v r) ∧
    (∀ ls, removals o v p = .ok ls →
      ((∃ r, p.delete o v = .ok r) ↔ ∀ l ∈ ls, (v.at? l).isSome) ∧
      ((∃ n l, p.delete o v = .error (.unappliable n l)) ↔ ∃ l ∈ ls, v.at? l = none) ∧
      ((View.root v).staysWithin p = true → ∀ l ∈ ls, (v.at? l).isSome) ∧
      (p.length ≤ o.maxDepth → targets o.maxDepth false v p = .ok ls)) ∧
    (p.isConcrete = true → ∀ e, (View.root v).resolve p = .error e →
      ∀ r, p.delete o v = .ok r → r = v) := by
  refine ⟨fun r h => ?removed, fun ls hr => ⟨?succeeds, ?fails, ?within, ?reached⟩, ?unresolved⟩
  case removed =>
    obtain ⟨ls, hr⟩ := exists_removals_of_delete h
    obtain ⟨hc, e⟩ := eq_removeAll_of_delete hv ha hw hp hr h
    exact ⟨ls, hr, e ▸ Json.removed_removeAll hv (fun _ => mem_removalOrder) hc⟩
  case succeeds =>
    refine ⟨?_, fun hc => ⟨_, delete_eq_removeAll hv ha hp hr hc⟩⟩
    rintro ⟨r, h⟩
    exact (eq_removeAll_of_delete hv ha hw hp hr h).1
  case fails =>
    refine ⟨?_, delete_eq_error hv ha hw hp hr⟩
    rintro ⟨n, l, h⟩
    by_cases hc : ∀ l ∈ ls, (v.at? l).isSome
    case pos => simp [delete_eq_removeAll hv ha hp hr hc] at h
    case neg => simpa using hc
  case within =>
    obtain ⟨limit, ht⟩ := exists_targets_of_removals hv hr
    exact fun hs l hl => at?_of_staysWithin hv hw hs ht hl
  case reached => exact fun hd => targets_of_removals hv hd hr
  case unresolved =>
    intro hc e he r h
    obtain ⟨ls, hr⟩ := exists_removals_of_delete h
    have hls : removalOrder ls = [] := List.eq_nil_iff_forall_not_mem.mpr fun l hl => by
      have hl := mem_removalOrder.mp hl
      simp [removals_of_isConcrete hc hr, he, Except.toOption] at hl
    have hr := (eq_removeAll_of_delete hv ha hw hp hr h).2
    rw [hr, hls, Json.removeAll_nil fun _ => rfl]

theorem delete_simultaneous_slices :
    let v : Json := .obj [("a", .arr [.int 0, .int 1, .int 2]), ("b", .arr [.int 3]), ("c", .null)]
    let p : Path := [.children false, .slice ⟨none, none, some (-2)⟩]
    ∃ r, p.delete .default v = .ok r ∧ Json.Removed
      [[.key "a", .index 2], [.key "a", .index 0], [.key "b", .index 0]] v r := by
  intro v p
  have hv : v.WellFormed := by
    simp [v, Json.WellFormed, Json.WellFormedMembers, Json.WellFormedItems, Json.int, Members.keys]
  have hr : removals .default v p =
      .ok [[.key "a", .index 2], [.key "a", .index 0], [.key "b", .index 0]] := by rfl
  obtain ⟨h, h', _⟩ := delete_simultaneous .default hv (p := p) (by decide) (by decide) (by simp [p])
  obtain ⟨hs, _, hw, _⟩ := h' _ hr
  obtain ⟨r, hd⟩ := hs.mpr (hw (by decide))
  obtain ⟨ls, e, hu⟩ := h r hd
  cases hr.symm.trans e
  exact ⟨r, hd, hu⟩

end Path

end JsonQuery
