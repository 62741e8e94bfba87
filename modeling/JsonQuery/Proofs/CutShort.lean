import JsonQuery.Proofs.Agreement

namespace JsonQuery

variable {α β : Type} {cut : Error → Prop} {limit depth limit' depth' : Nat}

-- A computation, and one that goes on where the first one is cut short by an error of some kind.
-- Where that does not happen they are the same.
inductive CutShort (cut : Error → Prop) : Except Error α → Except Error α → Prop
  | same (x : Except Error α) : CutShort cut x x
  | stopped {e : Error} (h : cut e) (y : Except Error α) : CutShort cut (.error e) y

namespace CutShort

variable {x y : Except Error α}

theorem bind {f g : α → Except Error β} (h : CutShort cut x y)
    (hf : ∀ a, CutShort cut (f a) (g a)) : CutShort cut (x >>= f) (y >>= g) := by
  cases h with
  | stopped h y => exact .stopped h _
  | same =>
    cases x with
    | error e => exact .same _
    | ok a    => exact hf a

theorem map (h : CutShort cut x y) (f : α → β) : CutShort cut (x.map f) (y.map f) := by
  cases h with
  | stopped h y => exact .stopped h _
  | same        => exact .same _

theorem mapM {f g : α → Except Error β} {xs : List α} (h : ∀ x ∈ xs, CutShort cut (f x) (g x)) :
    CutShort cut (xs.mapM f) (xs.mapM g) := by
  induction xs with
  | nil => exact .same _
  | cons x rest ih =>
    have ⟨hx, hr⟩ := List.forall_mem_cons.mp h
    rw [List.mapM_cons, List.mapM_cons]
    exact hx.bind fun y => (ih hr).bind fun ys => .same _

theorem eq (h : CutShort cut x y) (hx : ∀ e, x = .error e → ¬ cut e) : y = x := by
  cases h with
  | stopped h y => exact absurd h (hx _ rfl)
  | same        => rfl

end CutShort

namespace Run

-- The same for runs, where the results that come before the error are kept.
inductive CutShort (cut : Error → Prop) : Run α → Run α → Prop
  | same (r : Run α) : CutShort cut r r
  | stopped {r s : Run α} {e : Error} (error : r.error? = some e) (h : cut e)
      (found : r.found <+: s.found) : CutShort cut r s

variable {r r' s s' : Run α}

theorem CutShort.found (h : r.CutShort cut s) : r.found <+: s.found := by
  cases h with
  | same               => exact List.prefix_rfl
  | stopped _ _ hfound => exact hfound

theorem CutShort.andThen (h : r.CutShort cut r') (hs : s.CutShort cut s') :
    (r.andThen s).CutShort cut (r'.andThen s') := by
  cases h with
  | stopped he h hf =>
    rw [andThen_of_error? he]
    exact .stopped he h (hf.trans (found_prefix_andThen r' s'))
  | same =>
    cases hr : r.error? with
    | some e =>
      rw [andThen_of_error? hr, andThen_of_error? hr]
      exact .same r
    | none =>
      rw [andThen_of_error?_eq_none hr, andThen_of_error?_eq_none hr]
      cases hs with
      | same            => exact .same _
      | stopped he h hf => exact .stopped he h ((List.prefix_append_right_inj r.found).mpr hf)

theorem CutShort.inTurn {f g : α → Run β} (xs : List α) (h : ∀ x ∈ xs, (f x).CutShort cut (g x)) :
    (inTurn f xs).CutShort cut (inTurn g xs) := by
  induction xs with
  | nil => exact .same _
  | cons x rest ih =>
    have ⟨hx, hr⟩ := List.forall_mem_cons.mp h
    exact hx.andThen (ih hr)

theorem CutShort.eq (h : r.CutShort cut s) (hr : ∀ e, r.error? = some e → ¬ cut e) : s = r := by
  cases h with
  | same            => rfl
  | stopped he hc _ => exact absurd hc (hr _ he)

theorem CutShort.once (h : r.CutShort cut s) : r.once.CutShort cut s.once := by
  cases h with
  | same => exact .same _
  | stopped he h hf =>
    cases hr : r.found with
    | nil =>
      rw [once_of_found_eq_nil hr]
      exact .stopped he h (hr ▸ List.nil_prefix)
    | cons x rest =>
      have ⟨more, hs⟩ := hf
      have hs : s.found = x :: (rest ++ more) := by rw [← hs, hr, List.cons_append]
      rw [once_of_found hr, once_of_found hs]
      exact .same _

-- Result by result the two runs are the same, up to the error that cuts the first one short.
theorem CutShort.results (h : r.CutShort cut s) (n : Nat) : s.results[n]? = r.results[n]? ∨
    ∃ k ≤ n, ∃ e, r.results[k]? = some (.error e) ∧ cut e := by
  cases h with
  | same => exact .inl rfl
  | @stopped _ e he h hf =>
    by_cases hn : n < r.found.length
    case pos =>
      have ⟨more, hs⟩ := hf
      simp [Run.results, ← hs, List.getElem?_append, hn, Nat.lt_add_right]
    case neg =>
      have hk : r.results[r.found.length]? = some (.error e) := by simp [Run.results, he]
      exact .inr ⟨r.found.length, Nat.le_of_not_lt hn, e, hk, h⟩

theorem CutShort.all (h : r.CutShort cut s) : JsonQuery.CutShort cut r.all s.all := by
  cases h with
  | same => exact .same _
  | stopped he h _ =>
    rw [Run.all, he]
    exact .stopped h _

-- The first result is found before the error, or the error comes first.
theorem CutShort.first? (h : r.CutShort cut s) : JsonQuery.CutShort cut r.first? s.first? := by
  cases h with
  | same => exact .same _
  | stopped he h hf =>
    cases hr : r.found with
    | nil =>
      rw [Run.first?, hr, he]
      exact .stopped h _
    | cons x rest =>
      obtain ⟨more, hs⟩ := hf
      rw [Run.first?, Run.first?, ← hs, hr]
      exact .same _

end Run

-- A depth from which there is no less room below a limit than from another one. Below the largest
-- depth of all there is no end of it.
def NoDeeper (limit depth depth' : Nat) : Prop :=
  depth' ≤ depth ∨ depth' ≤ limit ∧ 0xFFFFFFFFFFFFFFFF ≤ limit

theorem NoDeeper.deeper (h : NoDeeper limit depth depth') (hd : depth ≤ limit) :
    NoDeeper limit (deeper depth) (JsonQuery.deeper depth') := by
  simp only [NoDeeper, JsonQuery.deeper] at h ⊢
  omega

-- What is left of a computation further down may go on where the computation started.
theorem NoDeeper.below (h : NoDeeper limit depth depth') (hd : depth ≤ limit) :
    NoDeeper limit (JsonQuery.deeper depth) depth' := by
  simp only [NoDeeper, JsonQuery.deeper] at h ⊢
  omega

-- Two depth limits, each with the depth that a computation is at. The second one leaves no less room,
-- and where it leaves more the first one may cut the computation short.
inductive Roomier (cut : Error → Prop) (limit depth limit' depth' : Nat) : Prop
  | same (limits : limit = limit') (depths : depth = depth')
  | more (limits : limit ≤ limit') (depths : NoDeeper limit' depth depth') (h : cut (.tooDeep limit))

namespace Roomier

theorem of_le {d d' : Nat} (h : d ≤ d') (depth : Nat) :
    Roomier (· = .tooDeep d) d depth d' depth :=
  .more h (.inl (Nat.le_refl _)) rfl

-- What starts in one place is in one place further down. Otherwise this needs a depth that is not
-- beyond its limit, since a depth that has gone around has all the room there is.
theorem deeper (h : Roomier cut limit depth limit' depth') (hd : depth = depth' ∨ depth ≤ limit) :
    Roomier cut limit (deeper depth) limit' (JsonQuery.deeper depth') := by
  cases h with
  | same hl e => exact .same hl (congrArg _ e)
  | more hl h hc =>
    refine .more hl ?_ hc
    cases hd with
    | inl e  => exact .inl (e ▸ Nat.le_refl _)
    | inr hd => exact h.deeper (Nat.le_trans hd hl)

-- Where the first limit leaves room the second one does, too. Where it does not its error cuts short,
-- or the second limit gives the same error.
theorem room (h : Roomier cut limit depth limit' depth') : depth ≤ limit ∧ depth' ≤ limit' ∨
    limit < depth ∧ (cut (.tooDeep limit) ∨ limit = limit' ∧ limit' < depth') := by
  cases h with
  | same hl e => omega
  | more hl h hc =>
    by_cases hd : limit < depth
    case pos => exact .inr ⟨hd, .inl hc⟩
    case neg =>
      simp only [NoDeeper] at h
      exact .inl (by omega)

theorem guard {x y : Except Error α} (h : Roomier cut limit depth limit' depth')
    (hxy : depth ≤ limit → CutShort cut x y) :
    CutShort cut (if limit < depth then .error (.tooDeep limit) else x)
      (if limit' < depth' then .error (.tooDeep limit') else y) := by
  rcases h.room with ⟨hd, hd'⟩ | ⟨hd, hc | ⟨rfl, hd'⟩⟩
  case inl =>
    rw [if_neg (Nat.not_lt.mpr hd), if_neg (Nat.not_lt.mpr hd')]
    exact hxy hd
  case inr.inl =>
    rw [if_pos hd]
    exact .stopped hc _
  case inr.inr =>
    rw [if_pos hd, if_pos hd']
    exact .same _

theorem guardRun {r s : Run α} (h : Roomier cut limit depth limit' depth')
    (hrs : depth ≤ limit → r.CutShort cut s) :
    (if limit < depth then Run.fail (.tooDeep limit) else r).CutShort cut
      (if limit' < depth' then Run.fail (.tooDeep limit') else s) := by
  rcases h.room with ⟨hd, hd'⟩ | ⟨hd, hc | ⟨rfl, hd'⟩⟩
  case inl =>
    rw [if_neg (Nat.not_lt.mpr hd), if_neg (Nat.not_lt.mpr hd')]
    exact hrs hd
  case inr.inl =>
    rw [if_pos hd]
    exact .stopped rfl hc List.nil_prefix
  case inr.inr =>
    rw [if_pos hd, if_pos hd']
    exact .same _

end Roomier

namespace Json

variable {only : Option Descendants}

mutual

theorem pathsBelow_cutShort : {depth depth' : Nat} → Roomier cut limit depth limit' depth' →
    (v : Json) → (path : List Json) →
    CutShort cut (pathsBelow only limit depth path v) (pathsBelow only limit' depth' path v)
  | _, _, h, v, path => by
    cases v <;> simp only [pathsBelow]
    case arr items   => exact h.guard fun hd => pathsOfItems_cutShort h (.inr hd) items 0 path
    case obj members => exact h.guard fun hd => pathsOfMembers_cutShort h (.inr hd) members path
    all_goals exact h.guard fun _ => .same _

theorem pathsOfItems_cutShort : {depth depth' : Nat} → Roomier cut limit depth limit' depth' →
    depth = depth' ∨ depth ≤ limit → (items : List Json) → (i : Nat) → (path : List Json) →
    CutShort cut (pathsOfItems only limit depth path i items)
      (pathsOfItems only limit' depth' path i items)
  | _, _, _, _, [], _, _ => .same _
  | _, _, h, hd, v :: rest, i, path => by
    simp only [pathsOfItems]
    refine (pathsBelow_cutShort (h.deeper hd) v _).bind fun below => ?_
    exact (pathsOfItems_cutShort h hd rest (i + 1) path).bind fun others => .same _

theorem pathsOfMembers_cutShort : {depth depth' : Nat} → Roomier cut limit depth limit' depth' →
    depth = depth' ∨ depth ≤ limit → (members : List (String × Json)) → (path : List Json) →
    CutShort cut (pathsOfMembers only limit depth path members)
      (pathsOfMembers only limit' depth' path members)
  | _, _, _, _, [], _ => .same _
  | _, _, h, hd, (k, v) :: rest, path => by
    simp only [pathsOfMembers]
    refine (pathsBelow_cutShort (h.deeper hd) v _).bind fun below => ?_
    exact (pathsOfMembers_cutShort h hd rest path).bind fun others => .same _

end

theorem paths_cutShort (h : Roomier cut limit depth limit' depth') (v : Json) :
    CutShort cut (v.paths only limit depth) (v.paths only limit' depth') :=
  (pathsBelow_cutShort h v []).map arr

mutual

theorem flattenItem_cutShort : {depth depth' : Nat} → Roomier cut limit depth limit' depth' →
    depth = depth' ∨ depth ≤ limit → (v : Json) → (levels : Option Nat) →
    CutShort cut (flattenItem limit levels depth v) (flattenItem limit' levels depth' v)
  | _, _, h, hd, v, levels => by
    cases v
    case arr items =>
      have h := h.deeper hd
      simp only [flattenItem]
      split
      case isTrue  => exact .same _
      case isFalse => exact h.guard fun hd => flattenItems_cutShort h (.inr hd) items _
    all_goals exact .same _

theorem flattenItems_cutShort : {depth depth' : Nat} → Roomier cut limit depth limit' depth' →
    depth = depth' ∨ depth ≤ limit → (items : List Json) → (levels : Option Nat) →
    CutShort cut (flattenItems limit levels depth items) (flattenItems limit' levels depth' items)
  | _, _, _, _, [], _ => .same _
  | _, _, h, hd, v :: rest, levels => by
    simp only [flattenItems]
    refine (flattenItem_cutShort h hd v levels).bind fun first => ?_
    exact (flattenItems_cutShort h hd rest levels).bind fun others => .same _

end

theorem flatten_cutShort (h : Roomier cut limit depth limit' depth') (levels : Option Nat)
    (v : Json) : CutShort cut (v.flatten limit levels depth) (v.flatten limit' levels depth') := by
  cases v
  case arr items => exact h.guard fun hd => (flattenItems_cutShort h (.inr hd) items levels).map arr
  all_goals exact .same _

end Json

-- Why a strict read stops where another one drops a branch.
def Error.isMiss : Error → Bool
  | mismatch .. | missingKey _ | missingIndex .. => true
  | _ => false

-- Options at one depth and options at another depth that ask for no more. Where they ask for less, the
-- errors that make the difference may cut a computation short.
structure Laxer (cut : Error → Prop) (o : Options) (depth : Nat) (o' : Options) (depth' : Nat) :
    Prop where
  room   : Roomier cut o.maxDepth depth o'.maxDepth depth'
  strict : o.strict = o'.strict ∨ o'.strict = false ∧ ∀ e : Error, e.isMiss = true → cut e

namespace Laxer

variable {o o' : Options}

-- What is computed at some depth without an error is the same wherever it is computed further up.
theorem of_le (h : depth' ≤ depth) : Laxer (fun _ => True) o depth o depth' :=
  ⟨.more (Nat.le_refl _) (.inl h) trivial, .inl rfl⟩

theorem deeper (h : Laxer cut o depth o' depth') (hd : depth = depth' ∨ depth ≤ o.maxDepth) :
    Laxer cut o (deeper depth) o' (JsonQuery.deeper depth') :=
  ⟨h.room.deeper hd, h.strict⟩

theorem of_strict (o : Options) (depth : Nat) :
    Laxer (·.isMiss = true) { o with strict := true } depth { o with strict := false } depth :=
  ⟨.same rfl rfl, .inr ⟨rfl, fun _ h => h⟩⟩

theorem of_onlyFirst (o : Options) (b b' : Bool) (depth : Nat) :
    Laxer (fun _ => False) { o with onlyFirst := b } depth { o with onlyFirst := b' } depth :=
  ⟨.same rfl rfl, .inl rfl⟩

theorem of_maxDepth (o : Options) {d d' : Nat} (h : d ≤ d') (depth : Nat) :
    Laxer (· = .tooDeep d) { o with maxDepth := d } depth { o with maxDepth := d' } depth :=
  ⟨.of_le h depth, .inl rfl⟩

theorem stuck (h : Laxer cut o depth o' depth') (q : Bool) {e : Error} (he : e.isMiss = true) :
    CutShort cut (o.stuck q e) (o'.stuck q e) := by
  unfold Options.stuck
  cases h.strict with
  | inl hs =>
    rw [hs]
    exact .same _
  | inr hs =>
    rw [hs.1]
    split
    case isTrue  => exact .stopped (hs.2 e he) _
    case isFalse => exact .same _

end Laxer

variable {o o' : Options}

-- An addressable segment knows of the options only whether it may lead nowhere.
theorem Segment.visit_addressable_cutShort (h : Laxer cut o depth o' depth') {s : Segment}
    (ha : s.isAddressable = true) (last : Bool) (u : Spot) :
    CutShort cut (s.visit o last depth u) (s.visit o' last depth' u) := by
  cases s <;> simp only [visit]
  case key name q =>
    cases u.value <;> simp only
    case obj ms =>
      split
      case isTrue  => exact .same _
      case isFalse => exact h.stuck q rfl
    all_goals exact h.stuck q rfl
  case index i q =>
    have hm (e : Error) (he : e.isMiss = true) :
        CutShort cut (if q && last then .ok (.inl ⟨u.location, .null⟩) else o.stuck q e)
          (if q && last then .ok (.inl ⟨u.location, .null⟩) else o'.stuck q e) := by
      split
      case isTrue  => exact .same _
      case isFalse => exact h.stuck q he
    cases u.value <;> simp only
    case arr items =>
      cases resolveIndex i items.length
      case some n => exact .same _
      case none   => exact hm _ rfl
    all_goals exact hm _ rfl
  case children q | elements q =>
    cases u.value <;> first | exact .same _ | exact h.stuck q rfl
  case slice sl | selector p text =>
    cases u.value <;> first | exact .same _ | exact h.stuck false rfl
  case call f text | literal x | construct fields => cases ha

mutual

theorem Segment.visit_cutShort : {depth depth' : Nat} → Laxer cut o depth o' depth' →
    depth = depth' ∨ depth ≤ o.maxDepth → (s : Segment) → (last : Bool) → (u : Spot) →
    CutShort cut (s.visit o last depth u) (s.visit o' last depth' u)
  | _, _, h, hd, s, last, u => by
    cases s
    case call f text      => exact (Builtin.evaluate_cutShort h hd f u.value).map _
    case literal x        => exact .same _
    case construct fields =>
      exact (Path.evaluateFields_cutShort (h.deeper hd) fields u.value).map _
    all_goals exact Segment.visit_addressable_cutShort h rfl last u

theorem Path.evaluate_cutShort : {depth depth' : Nat} → Laxer cut o depth o' depth' →
    (p : List Segment) → (u : Spot) →
    (Path.evaluate o p depth u).CutShort cut (Path.evaluate o' p depth' u)
  | _, _, h, [], u => h.room.guardRun fun _ => .same _
  | depth, depth', h, s :: rest, u => by
    rw [Path.evaluate, Path.evaluate]
    refine h.room.guardRun fun hd => ?_
    have hv := Segment.visit_cutShort h (.inr hd) s rest.isEmpty u
    generalize s.visit o rest.isEmpty depth u = x at hv
    generalize s.visit o' rest.isEmpty depth' u = y at hv
    cases hv with
    | stopped hc y => exact .stopped rfl hc List.nil_prefix
    | same =>
      cases x with
      | error e => exact .same _
      | ok z =>
        cases z with
        | inl m  => exact .same _
        | inr ws =>
          exact Run.CutShort.inTurn ws fun w _ => Path.evaluate_cutShort (h.deeper (.inr hd)) rest w

theorem Path.evaluateFields_cutShort : {depth depth' : Nat} → Laxer cut o depth o' depth' →
    (fields : List (String × List Segment)) → (v : Json) →
    CutShort cut (Path.evaluateFields o fields depth v) (Path.evaluateFields o' fields depth' v)
  | _, _, _, [], _ => .same _
  | _, _, h, (name, p) :: rest, v => by
    rw [Path.evaluateFields, Path.evaluateFields]
    refine (Path.evaluate_cutShort h p (.root v)).all.bind fun found => ?_
    exact (Path.evaluateFields_cutShort h rest v).bind fun others => .same _

theorem Builtin.evaluate_cutShort : {depth depth' : Nat} → Laxer cut o depth o' depth' →
    depth = depth' ∨ depth ≤ o.maxDepth → (f : Builtin) → (v : Json) →
    CutShort cut (f.evaluate o depth v) (f.evaluate o' depth' v)
  | _, _, h, hd, f, v => by
    cases f
    case map m          => exact Mapping.evaluate_cutShort h hd m v
    case paths only     => exact Json.paths_cutShort h.room v
    case flatten levels => exact Json.flatten_cutShort h.room levels v
    all_goals exact .same _

theorem Mapping.evaluate_cutShort : {depth depth' : Nat} → Laxer cut o depth o' depth' →
    depth = depth' ∨ depth ≤ o.maxDepth → (m : Mapping) → (v : Json) →
    CutShort cut (m.evaluate o depth v) (m.evaluate o' depth' v)
  | _, _, h, hd, .path p, v => by
    cases v
    case arr items =>
      refine CutShort.map (CutShort.mapM fun x _ => ?_) _
      exact (Path.evaluate_cutShort (h.deeper hd) p (.root x)).first?.map _
    all_goals exact .same _
  | _, _, _, _, .arithmetic op operand, v => by
    cases v <;> exact .same _

end

theorem Builtin.apply_cutShort (h : Laxer cut o depth o' depth) (f : Builtin) (v : Json) :
    CutShort cut (f.apply o depth v) (f.apply o' depth v) := by
  rw [← Builtin.evaluate_eq, ← Builtin.evaluate_eq]
  exact Builtin.evaluate_cutShort h (.inl rfl) f v

theorem Path.fieldValues_cutShort (h : Laxer cut o depth o' depth')
    (fields : List (String × List Segment)) (v : Json) :
    CutShort cut (Path.fieldValues o depth v fields) (Path.fieldValues o' depth' v fields) := by
  rw [← Path.evaluateFields_eq, ← Path.evaluateFields_eq]
  exact Path.evaluateFields_cutShort h fields v

-- What the calls of a read are told.
theorem Path.told_cutShort (h : Laxer cut o 0 o' 0) (hf : o.onlyFirst = o'.onlyFirst) (p : Path)
    (v : Json) : (p.cursor o v).told.CutShort cut (p.cursor o' v).told := by
  have hr : (p.cursor o v).run.CutShort cut (p.cursor o' v).run := by
    rw [run_cursor, run_cursor]
    exact evaluate_cutShort h p (.root v)
  have ho : (p.cursor o v).onlyFirst = (p.cursor o' v).onlyFirst := hf
  unfold Cursor.told
  rw [ho]
  split
  case isTrue  => exact hr.once
  case isFalse => exact hr

end JsonQuery
