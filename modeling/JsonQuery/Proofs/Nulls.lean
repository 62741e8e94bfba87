import Mathlib.Data.List.Perm.Subperm
import JsonQuery.Proofs.Commuting

namespace JsonQuery

-- The places that are filled up when a step is made in an array of `length` elements.
def Step.padding (length : Nat) : Step → List Nat
  | .key _   => []
  | .index i => List.range' length (i - length)

namespace Json

variable {v r c x : Json} {s t : Step} {l place : Location} {i limit : Nat} {extra : List Nat}

-- The null elements of the array at a location, by their indices. The element at `place` does not
-- count.
def nullsBeside (place : Location) (v : Json) (l : Location) : List Nat :=
  (List.range ((v.at? l).getD null).itemsOf.length).filter fun i =>
    v.at? (l ++ [.index i]) = some null ∧ l ++ [.index i] ≠ place

theorem mem_nullsBeside : i ∈ v.nullsBeside place l ↔
    v.at? (l ++ [.index i]) = some null ∧ l ++ [.index i] ≠ place := by
  rw [nullsBeside, List.mem_filter, decide_eq_true_eq]
  refine and_iff_right_of_imp fun ⟨h, _⟩ => ?_
  rw [at?_snoc] at h
  obtain ⟨c, hc, hi⟩ := Option.bind_eq_some_iff.mp h
  cases c <;> simp only [child?, reduceCtorEq] at hi
  case arr items =>
    rw [hc, List.mem_range]
    exact (List.getElem?_eq_some_iff.mp hi).1

theorem length_nullsBeside_le
    (h : ∀ i ∈ r.nullsBeside place l, i ∈ v.nullsBeside place l ∨ i ∈ extra) :
    (r.nullsBeside place l).length ≤ (v.nullsBeside place l).length + extra.length := by
  have hn : (r.nullsBeside place l).Nodup := List.nodup_range.filter _
  rw [← List.length_append]
  exact (hn.subperm fun i hi => List.mem_append.mpr (h i hi)).length_le

theorem at?_null_snoc (l : Location) (s : Step) : null.at? (l ++ [s]) = none := by
  cases l <;> rfl

theorem put_ne_null (hl : l ≠ []) (v x : Json) : v.put l x ≠ null := by
  cases l with
  | nil      => exact absurd rfl hl
  | cons s l => cases s <;> simp [put_key, put_index]

-- The child on the way to a value that is put somewhere.
theorem child?_put_self (v : Json) (s : Step) (l : Location) (x : Json) :
    (v.put (s :: l) x).child? s = some (((v.child? s).getD null).put l x) := by
  cases s with
  | key k =>
    rw [put_key, child?, Members.get?_insert_self]
    cases v <;> rfl
  | index i =>
    have hi : i < (stretch v.itemsOf (i + 1)).length := by
      rw [length_stretch]
      exact Nat.lt_of_lt_of_le (Nat.lt_succ_self i) (Nat.le_max_right ..)
    rw [put_index, child?, List.getElem?_set_self hi]
    cases v <;> rfl

-- Other children were there before, or fill up an array.
theorem child?_put_of_ne (h : t ≠ s) (hc : (v.put (s :: l) x).child? t = some c) :
    v.child? t = some c ∨
      c = null ∧ ∃ i j, s = .index i ∧ t = .index j ∧ v.itemsOf.length ≤ j ∧ j < i := by
  cases s with
  | key k =>
    rw [put_key] at hc
    cases t with
    | index j => cases hc
    | key k'  =>
      have hk : k ≠ k' := fun e => h (congrArg _ e.symm)
      rw [child?, Members.get?_insert_of_ne hk] at hc
      cases v <;> exact .inl hc
  | index i =>
    rw [put_index] at hc
    cases t with
    | key k   => cases hc
    | index j =>
      have hi : i ≠ j := fun e => h (congrArg _ e.symm)
      rw [child?, List.getElem?_set_ne hi, getElem?_stretch, Option.or_eq_some_iff] at hc
      rcases hc with hc | ⟨hn, hc⟩
      case inl => cases v <;> exact .inl hc
      case inr =>
        split at hc
        case isFalse => cases hc
        case isTrue hlt =>
          have hlen := List.getElem?_eq_none_iff.mp hn
          exact .inr ⟨(Option.some.inj hc).symm, i, j, rfl, rfl, hlen, by omega⟩

-- No index of a location leads more than so many places behind the end of its array.
def PadsAtMost (limit : Nat) (v : Json) (place : Location) : Prop :=
  ∀ l i m, place = l ++ .index i :: m → i ≤ ((v.at? l).getD null).itemsOf.length + limit

theorem PadsAtMost.child (h : v.PadsAtMost limit (s :: place)) :
    ((v.child? s).getD null).PadsAtMost limit place := by
  intro l i m e
  have h := h (s :: l) i m (by rw [e]; rfl)
  rw [at?_cons] at h
  cases hc : v.child? s with
  | some c => simpa [hc] using h
  | none   =>
    rw [hc] at h
    exact Nat.le_trans h (Nat.add_le_add_right (Nat.zero_le _) limit)

theorem PadsAtMost.length_padding (h : v.PadsAtMost limit (s :: place)) :
    (s.padding v.itemsOf.length).length ≤ limit := by
  cases s with
  | key k   => exact Nat.zero_le limit
  | index i =>
    have hi : i ≤ v.itemsOf.length + limit := h [] i place rfl
    rw [Step.padding, List.length_range']
    omega

-- In the array itself the null elements are old ones, or those that the first step adds.
theorem mem_nullsBeside_put_nil (h : i ∈ (v.put (s :: place) x).nullsBeside (s :: place) []) :
    i ∈ v.nullsBeside (s :: place) [] ∨ i ∈ s.padding v.itemsOf.length := by
  obtain ⟨hi, hne⟩ := mem_nullsBeside.mp h
  rw [List.nil_append] at hi hne
  rw [mem_nullsBeside, List.nil_append, at?_cons]
  rw [at?_cons] at hi
  obtain ⟨c, hc, hi⟩ := Option.bind_eq_some_iff.mp hi
  cases hi
  by_cases hs : .index i = s
  case pos =>
    subst hs
    rw [child?_put_self] at hc
    have hplace : place ≠ [] := fun e => hne (by rw [e])
    exact absurd (Option.some.inj hc) (put_ne_null hplace _ x)
  case neg =>
    rcases child?_put_of_ne hs hc with hc | ⟨_, j, _, rfl, ⟨⟩, hlen, hlt⟩
    case inl => exact .inl ⟨by rw [hc]; rfl, hne⟩
    case inr => exact .inr (List.mem_range'_1.mpr ⟨hlen, by omega⟩)

-- Behind another step they are old ones.
theorem mem_nullsBeside_put_of_ne (hs : t ≠ s)
    (h : i ∈ (v.put (s :: place) x).nullsBeside (s :: place) (t :: l)) :
    i ∈ v.nullsBeside (s :: place) (t :: l) := by
  obtain ⟨hi, hne⟩ := mem_nullsBeside.mp h
  refine mem_nullsBeside.mpr ⟨?_, hne⟩
  rw [List.cons_append, at?_cons] at hi ⊢
  obtain ⟨c, hc, hi⟩ := Option.bind_eq_some_iff.mp hi
  rcases child?_put_of_ne hs hc with hc | ⟨rfl, _⟩
  case inl => rw [hc]; exact hi
  case inr => simp [at?_null_snoc] at hi

-- Behind the same step they are those of the child, and a child that is missing has none.
theorem mem_nullsBeside_cons : i ∈ v.nullsBeside (s :: place) (s :: l) ↔
    i ∈ ((v.child? s).getD null).nullsBeside place l := by
  simp only [mem_nullsBeside, List.cons_append, at?_cons, ne_eq, List.cons.injEq, true_and]
  cases v.child? s with
  | some c => rfl
  | none   => simp [at?_null_snoc]

-- The induction is on the location. Behind the part of it that exists there is nothing but null.
theorem nullsBeside_put (hp : v.PadsAtMost limit place) (hl : ¬ place <+: l) (x : Json) :
    ∃ extra : List Nat, extra.length ≤ limit ∧ ∀ i ∈ (v.put place x).nullsBeside place l,
      i ∈ v.nullsBeside place l ∨ i ∈ extra := by
  induction place generalizing v l with
  | nil => exact absurd List.nil_prefix hl
  | cons s place ih =>
    cases l with
    | nil => exact ⟨_, hp.length_padding, fun i => mem_nullsBeside_put_nil⟩
    | cons t l =>
      by_cases hs : t = s
      case pos =>
        subst hs
        have hl : ¬ place <+: l := fun h => hl (List.cons_prefix_cons.mpr ⟨rfl, h⟩)
        obtain ⟨extra, hlen, hextra⟩ := ih hp.child hl
        refine ⟨extra, hlen, fun i hi => ?_⟩
        rw [mem_nullsBeside_cons, child?_put_self] at hi
        rw [mem_nullsBeside_cons]
        exact hextra i hi
      case neg => exact ⟨[], Nat.zero_le limit, fun i hi => .inl (mem_nullsBeside_put_of_ne hs hi)⟩

end Json

section

variable {limit length : Nat} {place steps : Location}

-- Only the first step can start in an array that is already there.
theorem checkPadding_eq_ok_iff : checkPadding limit place length steps = .ok () ↔
    ∀ n i, steps[n]? = some (.index i) → i ≤ (if n = 0 then length else 0) + limit := by
  induction steps generalizing place length with
  | nil => simp [checkPadding]
  | cons s steps ih =>
    have hrest : (∀ n i, (s :: steps)[n + 1]? = some (.index i) →
        i ≤ (if n + 1 = 0 then length else 0) + limit) ↔
          checkPadding limit (place ++ [s]) 0 steps = .ok () := by simp [ih]
    rw [← Nat.and_forall_add_one, hrest]
    cases s with
    | key k   => simp [checkPadding]
    | index i =>
      have hi : limit < i - length ↔ ¬ i ≤ length + limit := by omega
      by_cases h : i ≤ length + limit <;> simp [checkPadding, hi, h]

theorem eq_tooFar_of_checkPadding {e : Error}
    (h : checkPadding limit place length steps = .error e) :
    ∃ l, e = .tooFar l limit := by
  induction steps generalizing place length with
  | nil => cases h
  | cons s steps ih =>
    cases s with
    | key k   => exact ih h
    | index i =>
      rw [checkPadding] at h
      split at h
      case isTrue  => exact ⟨_, (Except.error.inj h).symm⟩
      case isFalse => exact ih h

end

theorem Segment.freshStep?_eq_index_iff {s : Segment} {i : Nat} :
    s.freshStep? = some (.index i) ↔ ∃ q, s = .index i q := by
  cases s <;> simp only [freshStep?, reduceCtorEq, Option.some.injEq, exists_false]
  case index j q =>
    simp only [Option.ite_none_left_eq_some, Option.some.injEq, Step.index.injEq, index.injEq]
    constructor
    case mp =>
      intro h
      exact ⟨q, by omega, rfl⟩
    case mpr =>
      rintro ⟨_, e, _⟩
      exact ⟨by omega, by omega⟩

namespace Path

variable {o : Options} {op : Operation} {v x r : Json} {p rest : Path} {w : View} {steps : Location}
  {limit : Nat}

theorem countsUp_of_nonneg (hc : rest.isConcrete = true) (hn : ∀ i q, .index i q ∈ rest → 0 ≤ i) :
    rest.countsUp = true := by
  refine List.all_eq_true.mpr fun s hs => ?_
  have hc := List.all_eq_true.mp hc s hs
  cases s <;> simp only [Segment.isConcrete, Bool.false_eq_true] at hc
  case key   => rfl
  case index => simp [Segment.freshStep?, Int.not_lt.mpr (hn _ _ hs)]

theorem newSteps_of_countsUp (h : rest.countsUp = true) (place : Location) :
    newSteps place rest = .ok rest.location := by
  induction rest with
  | nil => rfl
  | cons s rest ih =>
    obtain ⟨hs, hr⟩ : s.freshStep?.isSome = true ∧ countsUp rest = true := by
      simpa [countsUp] using h
    rw [newSteps, List.mapM_cons, ← newSteps, ih hr]
    cases s <;> simp only [Segment.freshStep?, Option.isSome_none, Bool.false_eq_true] at hs
    case key   => rfl
    case index =>
      split at hs
      case isTrue  => cases hs
      case isFalse hi =>
        simp [location, Segment.freshStep?, hi, bind, Except.bind, pure, Except.pure]

theorem getElem?_location (h : rest.countsUp = true) (n : Nat) :
    rest.location[n]? = rest[n]?.bind Segment.freshStep? := by
  induction rest generalizing n with
  | nil => rfl
  | cons s rest ih =>
    obtain ⟨hs, hr⟩ : s.freshStep?.isSome = true ∧ countsUp rest = true := by
      simpa [countsUp] using h
    obtain ⟨t, ht⟩ := Option.isSome_iff_exists.mp hs
    have e : location (s :: rest) = t :: location rest := by simp [location, ht]
    rw [e]
    cases n with
    | zero   => simp [ht]
    | succ n => exact ih hr n

-- The steps that are made add too many nulls if one of their indices lies too far behind its array.
theorem checkPadding_location (h : rest.countsUp = true) (place : Location) (length : Nat) :
    checkPadding limit place length rest.location ≠ .ok () ↔ ∃ n i q,
      rest[n]? = some (.index i q) ∧ (limit : Int) < i - (if n = 0 then length else 0 : Nat) := by
  have hstep (n i : Nat) : rest.location[n]? = some (.index i) ↔
      ∃ q, rest[n]? = some (.index i q) := by
    rw [getElem?_location h, Option.bind_eq_some_iff]
    constructor
    case mp =>
      rintro ⟨s, hs, hi⟩
      obtain ⟨q, rfl⟩ := Segment.freshStep?_eq_index_iff.mp hi
      exact ⟨q, hs⟩
    case mpr =>
      rintro ⟨q, hs⟩
      exact ⟨_, hs, Segment.freshStep?_eq_index_iff.mpr ⟨q, rfl⟩⟩
  simp only [Ne, checkPadding_eq_ok_iff, hstep, not_forall]
  constructor
  case mp =>
    rintro ⟨n, i, ⟨q, hi⟩, hlt⟩
    exact ⟨n, i, q, hi, by omega⟩
  case mpr =>
    rintro ⟨n, i, q, hi, hlt⟩
    obtain ⟨j, rfl⟩ := Int.eq_ofNat_of_zero_le (show 0 ≤ i by omega)
    exact ⟨n, j, ⟨q, hi⟩, by omega⟩

theorem write_eq_create (hc : p.isConcrete = true) (ht : targets o.maxDepth true v p = .ok []) :
    p.write o true op v x = p.create o.maxPadding op v x := by
  simp [write, ensureAddressable_eq_ok (isAddressable_of_isConcrete hc), ht, hc, bind, Except.bind]

-- An operation refuses a value whatever it is added to.
theorem apply_eq_error {old : Option Json} {e : Error} (h : op.apply old x = .error e) :
    e.kind = .value ∧ ∀ old, op.apply old x = .error e := by
  cases op with
  | set    => cases h
  | append => cases h
  | extend =>
    cases x <;> cases h
    all_goals exact ⟨rfl, fun _ => rfl⟩

theorem writeChange_of_refused {e : Error} (h : ∀ old, op.apply old x = .error e) (l : Location) :
    writeChange op v x l = .error e := by
  unfold writeChange
  split <;> rw [h] <;> rfl

theorem checkPadding_of_newLocations (hn : w.newLocations rest ≠ []) (place : Location)
    (length : Nat) : checkPadding limit place length rest.location = .ok () := by
  rcases rest with _ | ⟨s, _ | ⟨s', rest⟩⟩
  case nil => rfl
  case cons.nil =>
    cases s <;> simp [View.newLocations, Segment.newStep?] at hn
    case key => rfl
  case cons.cons => exact absurd rfl hn

section

variable (hc : p.isConcrete = true) (hd : (View.root v).deepest p = (w, rest))

include hc hd

theorem countsUp_of_deepest (hn : ∀ i q, .index i q ∈ rest → 0 ≤ i) : rest.countsUp = true := by
  obtain ⟨_, hsuffix, _⟩ := View.deepest_alter? hc rfl hd
  refine countsUp_of_nonneg (List.all_eq_true.mpr fun s hs => ?_) hn
  exact List.all_eq_true.mp hc s (hsuffix.subset hs)

-- Where the path exists its indices lie in their arrays. Behind that they are checked.
theorem padsAtMost_of_checkPadding
    (h : checkPadding limit w.location w.node.itemsOf.length steps = .ok ()) :
    v.PadsAtMost limit (w.location ++ steps) := by
  have hw := View.at?_of_deepest hc hd
  have h := checkPadding_eq_ok_iff.mp h
  intro l i m e
  rcases List.append_eq_append_iff.mp e with ⟨l', rfl, e'⟩ | ⟨m', e', e''⟩
  case inl =>
    have hi := h l'.length i (by simp [e'])
    cases l' with
    | nil       => simpa [hw] using hi
    | cons s l' =>
      have hi : i ≤ 0 + limit := hi
      exact Nat.le_trans hi (Nat.add_le_add_right (Nat.zero_le _) limit)
  case inr =>
    cases m' with
    | nil      =>
      have hat : v.at? l = some w.node := by rw [← hw, e', List.append_nil]
      have hsteps : steps = .index i :: m := e''.symm
      simpa [hat] using h 0 i (by rw [hsteps]; rfl)
    | cons s m' =>
      cases (List.cons.inj e'').1
      rw [e', Json.at?_append] at hw
      obtain ⟨c, hc, hw⟩ := Option.bind_eq_some_iff.mp hw
      rw [Json.at?_cons] at hw
      obtain ⟨d, hi, _⟩ := Option.bind_eq_some_iff.mp hw
      cases c <;> simp only [Json.child?, reduceCtorEq] at hi
      case arr items =>
        have hlt := (List.getElem?_eq_some_iff.mp hi).1
        rw [hc]
        exact Nat.le_trans (Nat.le_of_lt hlt) (Nat.le_add_right _ limit)

variable (hn : ∀ i q, .index i q ∈ rest → 0 ≤ i)

include hn

-- A value that the operation refuses is looked at only after the padding.
theorem write_of_refused {e : Error} (hl : p.length ≤ o.maxDepth)
    (hp : checkPadding o.maxPadding w.location w.node.itemsOf.length rest.location = .ok ())
    (h : ∀ old, op.apply old x = .error e) : p.write o true op v x = .error e := by
  have hs := newSteps_of_countsUp (countsUp_of_deepest hc hd hn) w.location
  have ht := targets_absent_of_deepest hc hd hl
  cases hnew : w.newLocations rest with
  | nil =>
    rw [write_eq_create hc (hnew ▸ ht)]
    simp [create, hd, hs, View.value_of_deepest hc hd, hp, h, bind, Except.bind]
  | cons l ls =>
    rw [hnew] at ht
    simp [write, ensureAddressable_eq_ok (isAddressable_of_isConcrete hc), ht,
      writeChange_of_refused h, bind, Except.bind]

-- A write fails with an error of this class if some index is refused, and only then.
theorem write_eq_error_iff (hl : p.length ≤ o.maxDepth) :
    (∃ e, p.write o true op v x = .error e ∧ e.kind = .index) ↔
    ∃ n i q, rest[n]? = some (.index i q) ∧
      (o.maxPadding : Int) < i - (if n = 0 then w.node.itemsOf.length else 0 : Nat) := by
  have hup := countsUp_of_deepest hc hd hn
  have hs := newSteps_of_countsUp hup w.location
  rw [← checkPadding_location hup w.location]
  constructor
  case mp =>
    rintro ⟨e, he, hkind⟩ hok
    cases hy : op.apply (if rest.isEmpty then some w.node else none) x with
    | error e' =>
      obtain ⟨hvalue, h⟩ := apply_eq_error hy
      cases he.symm.trans (write_of_refused hc hd hn hl hok h)
      cases hvalue.symm.trans hkind
    | ok y =>
      obtain ⟨r, hr, _⟩ := View.exists_alter?_of_deepest hc hd (w.node.put rest.location y)
      have hw : p.write o true op v x = .ok r := (write_eq_ok_iff hc hd).mpr
        ⟨hl, rest.location, y, ⟨hs, .inr ⟨rfl, hok⟩⟩, hy, hr⟩
      cases he.symm.trans hw
  case mpr =>
    intro hbad
    have hnone : w.newLocations rest = [] := by
      by_contra hsome
      exact hbad (checkPadding_of_newLocations hsome _ _)
    have ht : targets o.maxDepth true v p = .ok [] :=
      hnone ▸ targets_absent_of_deepest hc hd hl
    cases he : checkPadding o.maxPadding w.location w.node.itemsOf.length rest.location with
    | ok      => exact absurd he hbad
    | error e =>
      obtain ⟨l, rfl⟩ := eq_tooFar_of_checkPadding he
      refine ⟨.tooFar l o.maxPadding, ?_, rfl⟩
      rw [write_eq_create hc ht]
      simp [create, hd, hs, View.value_of_deepest hc hd, he, bind, Except.bind]

-- What a write leaves at its path is the value that the operation makes, and beside it no array
-- gains too many nulls.
theorem nullsBeside_write (hw : p.write o true op v x = .ok r) :
    ∃ place y, op.apply (if rest.isEmpty then some w.node else none) x = .ok y ∧
      (View.root r).resolve p = .ok place ∧ r.at? place = some y ∧
      ∀ l, ¬ place <+: l →
        (r.nullsBeside place l).length ≤ (v.nullsBeside place l).length + o.maxPadding := by
  have hup := countsUp_of_deepest hc hd hn
  obtain ⟨_, steps, y, ⟨hs, hadmits⟩, hy, hr⟩ := (write_eq_ok_iff hc hd).mp hw
  cases eq_location_of_newSteps hs
  have hpadding :
      checkPadding o.maxPadding w.location w.node.itemsOf.length rest.location = .ok () :=
    hadmits.elim (checkPadding_of_newLocations · _ _) (·.2)
  obtain ⟨r', hr', hdeep⟩ := View.exists_alter?_of_deepest hc hd (w.node.put rest.location y)
  cases hr.symm.trans hr'
  rw [deepest_put hs] at hdeep
  refine ⟨w.location ++ rest.location, y, hy, ?_, View.at?_of_deepest hc hdeep, fun l hl => ?_⟩
  case refine_1 => rw [View.resolve, hdeep]
  case refine_2 =>
    have e := (Json.alter?_put_append (View.at?_of_deepest hc hd) rest.location y).symm.trans hr
    cases e
    obtain ⟨extra, hlen, hextra⟩ :=
      Json.nullsBeside_put (padsAtMost_of_checkPadding hc hd hpadding) hl y
    exact Nat.le_trans (Json.length_nullsBeside_le hextra) (Nat.add_le_add_left hlen _)

end

end Path

end JsonQuery
