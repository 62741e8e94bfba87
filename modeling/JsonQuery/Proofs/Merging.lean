import JsonQuery.Path.Selection
import JsonQuery.Proofs.Run
import JsonQuery.Query

namespace JsonQuery

namespace Binary64

theorem round_ne_nan (neg : Bool) (num den : Nat) : round neg num den ≠ nan := by
  simp only [round, make]
  split <;> split <;> exact Binary64.noConfusion

theorem equals_self {x : Binary64} (h : x ≠ nan) : x.equals x = true := by
  cases x
  case finite x => exact equals_finite.mpr rfl
  case infinite => simp [equals, compare?]
  case nan      => exact absurd rfl h

end Binary64

-- The number that a number of a document is compared through is one.
theorem Number.approx_ne_nan (n : Number) : n.approx ≠ .nan := by
  cases n
  case int n   => exact Binary64.round_ne_nan _ _ _
  case float x => exact Binary64.noConfusion

namespace Json

variable {v w : Json} {ms want : List (String × Json)} {k : String}

theorem equalItems_self {items : List Json} (h : ∀ x ∈ items, x.equal x = true) :
    equalItems items items = true := by
  induction items with
  | nil => rfl
  | cons x rest ih =>
    obtain ⟨hx, hr⟩ := List.forall_mem_cons.mp h
    simp [equalItems, hx, ih hr]

theorem equalMembers_of_forall {as bs : List (String × Json)}
    (h : ∀ m ∈ as, ∃ b, Members.get? bs m.1 = some b ∧ m.2.equal b = true) :
    equalMembers as bs = true := by
  induction as with
  | nil => rfl
  | cons m rest ih =>
    obtain ⟨⟨b, hb, he⟩, hr⟩ := List.forall_mem_cons.mp h
    simp [equalMembers, hb, he, ih hr]

theorem equal_self (hv : v.WellFormed) : v.equal v = true := by
  induction v using childInduction with
  | scalar v hs =>
    cases v <;> simp only [equal, beq_self_eq_true]
    case num n   => exact Binary64.equals_self n.approx_ne_nan
    all_goals cases hs
  | arr items ih => exact equalItems_self fun x hx => ih x hx (wellFormedItems_iff.mp hv.2 x hx)
  | obj ms ih =>
    have he : equalMembers ms ms = true := equalMembers_of_forall fun m hm =>
      ⟨m.2, Members.get?_of_mem hv.keys_nodup hm, ih m hm (wellFormedMembers_iff.mp hv.2 m hm)⟩
    simp [equal, he]

theorem fitsMembers_of_forall
    (h : ∀ m ∈ want, ∃ x, Members.get? ms m.1 = some x ∧ x.fits m.2 = true) :
    fitsMembers ms want = true := by
  induction want with
  | nil => rfl
  | cons m rest ih =>
    obtain ⟨⟨x, hx, hf⟩, hr⟩ := List.forall_mem_cons.mp h
    simp [fitsMembers, hx, hf, ih hr]

-- A value holds all of a wanted one: an object may have more members, and everything else is the
-- same. This is what laying the wanted value over another one leads to.
inductive Extends : Json → Json → Prop where
  | plain {v : Json} (h : v.kind ≠ .object) : Extends v v
  | object {ms want : List (String × Json)} (keys : ∀ k ∈ Members.keys want, k ∈ Members.keys ms)
    (values : ∀ k x w, (k, w) ∈ want → Members.get? ms k = some x → Extends x w) :
    Extends (.obj ms) (.obj want)

namespace Extends

theorem refl (hv : v.WellFormed) : v.Extends v := by
  induction v using childInduction with
  | scalar v hs  => exact plain fun h => by cases v <;> cases h; cases hs
  | arr items ih => exact plain Kind.noConfusion
  | obj ms ih =>
    refine object (fun _ hk => hk) fun k x w hm hx => ?_
    cases hx.symm.trans (Members.get?_of_mem hv.keys_nodup hm)
    exact ih (k, x) hm (wellFormedMembers_iff.mp hv.2 (k, x) hm)

theorem get? (h : (obj ms).Extends (obj want)) {m : String × Json} (hm : m ∈ want) :
    ∃ x, Members.get? ms m.1 = some x ∧ x.Extends m.2 := by
  cases h
  case plain h => exact absurd rfl h
  case object hk hv =>
    have hk := Members.contains_iff_mem_keys.mpr (hk m.1 (List.mem_map_of_mem hm))
    obtain ⟨x, hx⟩ := Option.isSome_iff_exists.mp hk
    exact ⟨x, hx, hv m.1 x m.2 hm hx⟩

theorem fits (h : v.Extends w) (hw : w.WellFormed) : v.fits w = true := by
  induction h with
  | @plain v h =>
    cases v
    case obj => exact absurd rfl h
    all_goals exact equal_self hw
  | object hk hv ih =>
    have hf := fun m hm => get? (object hk hv) (m := m) hm
    refine fitsMembers_of_forall fun m hm => ?_
    obtain ⟨x, hx, _⟩ := hf m hm
    exact ⟨x, hx, ih m.1 x m.2 hm hx (wellFormedMembers_iff.mp hw.2 m hm)⟩

end Extends

section

variable {limit depth : Nat} {base overlay m r : Json} {bs os merged : List (String × Json)}

theorem merge_obj_obj_eq_ok_iff : merge limit depth (obj bs) (obj os) = .ok m ↔
    depth ≤ limit ∧ ∃ ms, mergeMembers limit depth bs os = .ok ms ∧ obj ms = m := by
  rw [merge]
  split
  case isTrue h  => simp [Nat.not_le_of_lt h]
  case isFalse h => simp [Nat.le_of_not_lt h, map_eq_ok_iff]

-- A merged value is made of two objects, or it is what was laid over the other one.
theorem merge_cases (h : merge limit depth base overlay = .ok m) :
    (∃ bs os ms, base = obj bs ∧ overlay = obj os ∧ m = obj ms ∧
      mergeMembers limit depth bs os = .ok ms) ∨
    (base.kind = .object → overlay.kind ≠ .object) ∧ m = overlay := by
  cases overlay
  case obj os =>
    cases base
    case obj bs =>
      obtain ⟨_, ms, hm, e⟩ := merge_obj_obj_eq_ok_iff.mp h
      exact .inl ⟨bs, os, ms, rfl, rfl, e.symm, hm⟩
    all_goals
      simp only [merge] at h
      split at h <;> cases h
      exact .inr ⟨Kind.noConfusion, rfl⟩
  all_goals
    simp only [merge] at h
    split at h <;> cases h
    exact .inr ⟨fun _ => Kind.noConfusion, rfl⟩

theorem merge_of_not_object (ho : overlay.kind ≠ .object)
    (h : merge limit depth base overlay = .ok m) : m = overlay := by
  cases merge_cases h
  case inl h =>
    obtain ⟨_, os, _, _, e, _⟩ := h
    exact absurd (e ▸ rfl) ho
  case inr h => exact h.2

-- What two objects have under a key together becomes what their merged object has there.
def mergeMember (limit depth : Nat) (base? overlay? : Option Json) : Except Error (Option Json) :=
  match overlay?, base? with
  | none,   b?     => .ok b?
  | some w, none   => .ok (some w)
  | some w, some b => (merge limit depth b w).map some

theorem mergeMembers_cons_eq_ok {w : Json}
    (h : mergeMembers limit depth bs ((k, w) :: os) = .ok merged) :
    ∃ new, mergeMember limit (depth + 1) (Members.get? bs k) (some w) = .ok (some new) ∧
      mergeMembers limit depth (Members.insert bs k new) os = .ok merged := by
  rw [mergeMembers] at h
  cases hk : Members.get? bs k with
  | none     => exact ⟨w, rfl, by simpa only [hk] using h⟩
  | some old =>
    rw [hk] at h
    obtain ⟨new, hnew, h⟩ := bind_eq_ok_iff.mp h
    exact ⟨new, map_eq_ok_iff.mpr ⟨new, hnew, rfl⟩, h⟩

theorem get?_mergeMembers (hn : (Members.keys os).Nodup)
    (h : mergeMembers limit depth bs os = .ok merged) (k : String) :
    mergeMember limit (depth + 1) (Members.get? bs k) (Members.get? os k) =
      .ok (Members.get? merged k) := by
  induction os generalizing bs with
  | nil =>
    cases h
    rfl
  | cons o rest ih =>
    obtain ⟨k', w⟩ := o
    obtain ⟨hk', hn⟩ := List.nodup_cons.mp hn
    obtain ⟨new, hnew, h⟩ := mergeMembers_cons_eq_ok h
    have hrest := ih hn h
    by_cases hk : k' = k
    case pos =>
      subst hk
      rw [Members.get?_insert_self, Members.get?_eq_none_iff.mpr hk'] at hrest
      rw [Members.get?, if_pos rfl, hnew, ← hrest]
      rfl
    case neg =>
      rw [Members.get?_insert_of_ne hk] at hrest
      rwa [Members.get?, if_neg hk]

-- The new keys come after the old ones.
theorem keys_mergeMembers (hn : (Members.keys os).Nodup)
    (h : mergeMembers limit depth bs os = .ok merged) :
    Members.keys merged = Members.keys bs ++ (Members.keys os).filter (· ∉ Members.keys bs) := by
  induction os generalizing bs with
  | nil =>
    cases h
    simp [Members.keys]
  | cons o rest ih =>
    obtain ⟨k, w⟩ := o
    obtain ⟨hk, hn⟩ := List.nodup_cons.mp hn
    obtain ⟨new, _, h⟩ := mergeMembers_cons_eq_ok h
    rw [ih hn h, Members.keys_insert]
    split
    case isTrue hb => simp [Members.keys_cons, hb]
    case isFalse hb =>
      have hf : (Members.keys rest).filter (· ∉ Members.keys bs ++ [k]) =
          (Members.keys rest).filter (· ∉ Members.keys bs) := List.filter_congr fun k' hk' => by
        have hne : k' ≠ k := fun e => hk (e ▸ hk')
        simp [hne]
      rw [hf]
      simp [Members.keys_cons, hb]

theorem mergeMembers_of_forall
    (h : ∀ o ∈ os, ∃ x, Members.get? bs o.1 = some x ∧
      ∀ r, merge limit (depth + 1) x o.2 = .ok r → r = x)
    (hm : mergeMembers limit depth bs os = .ok merged) : merged = bs := by
  induction os with
  | nil =>
    cases hm
    rfl
  | cons o rest ih =>
    obtain ⟨⟨x, hx, hr⟩, h⟩ := List.forall_mem_cons.mp h
    obtain ⟨new, hnew, hm⟩ := mergeMembers_cons_eq_ok hm
    rw [hx] at hnew
    obtain ⟨r, hxr, e⟩ := map_eq_ok_iff.mp hnew
    cases e
    cases hr _ hxr
    exact ih h (Members.insert_self hx ▸ hm)

-- Nothing changes in a value that holds all of what is laid over it.
theorem Extends.eq_of_merge (h : base.Extends overlay)
    (hm : merge limit depth base overlay = .ok m) : m = base := by
  induction h generalizing depth m with
  | plain h =>
    cases merge_cases hm
    case inl h' =>
      obtain ⟨bs, _, _, e, _⟩ := h'
      exact absurd (e ▸ rfl) h
    case inr h' => exact h'.2
  | object hk hv ih =>
    obtain ⟨_, ms, hms, e⟩ := merge_obj_obj_eq_ok_iff.mp hm
    subst e
    refine congrArg obj (mergeMembers_of_forall (fun o ho => ?_) hms)
    obtain ⟨x, hx, _⟩ := get? (object hk hv) ho
    exact ⟨x, hx, fun r hr => ih o.1 x o.2 ho hx hr⟩

-- A merged value holds all of what was laid over the other one.
theorem extends_of_merge (ho : overlay.WellFormed) (h : merge limit depth base overlay = .ok m) :
    m.Extends overlay := by
  induction overlay using childInduction generalizing base depth m with
  | scalar w hs =>
    rw [merge_of_not_object (fun e => by cases w <;> cases e; cases hs) h]
    exact .refl ho
  | arr items _ =>
    rw [merge_of_not_object Kind.noConfusion h]
    exact .refl ho
  | obj os ih =>
    cases merge_cases h
    case inr h =>
      rw [h.2]
      exact .refl ho
    case inl h =>
      obtain ⟨bs, _, ms, rfl, e, rfl, h⟩ := h
      cases e
      refine .object (fun k hk => ?keys) fun k x w hm hx => ?values
      case keys =>
        rw [keys_mergeMembers ho.keys_nodup h]
        by_cases hb : k ∈ Members.keys bs <;> simp [hb, hk]
      case values =>
        have hw := wellFormedMembers_iff.mp ho.2 (k, w) hm
        have hk := get?_mergeMembers ho.keys_nodup h k
        rw [Members.get?_of_mem ho.keys_nodup hm, hx] at hk
        cases hb : Members.get? bs k with
        | none =>
          rw [hb] at hk
          cases hk
          exact .refl hw
        | some b =>
          rw [hb] at hk
          obtain ⟨n, hn, e⟩ := map_eq_ok_iff.mp hk
          cases e
          exact ih (k, w) hm hw hn

-- A merged value has at the place of two values what merging these leads to, as long as the steps
-- to it lead through objects.
theorem merge_at {p : List String} (ho : overlay.WellFormed)
    (h : merge limit depth base overlay = .ok m) (hb : base.at? (p.map .key) = some v)
    (hw : overlay.at? (p.map .key) = some w) :
    ∃ n, merge limit (depth + p.length) v w = .ok n ∧ m.at? (p.map .key) = some n := by
  induction p generalizing base overlay depth m with
  | nil =>
    cases hb
    cases hw
    exact ⟨m, h, rfl⟩
  | cons k p ih =>
    rw [List.map_cons, at?_cons] at hb hw ⊢
    obtain ⟨b, hb, hvb⟩ := Option.bind_eq_some_iff.mp hb
    obtain ⟨o, ho', hwo⟩ := Option.bind_eq_some_iff.mp hw
    cases base <;> cases overlay <;> simp only [child?, reduceCtorEq] at hb ho'
    obtain ⟨_, ms, hms, e⟩ := merge_obj_obj_eq_ok_iff.mp h
    subst e
    have hk := get?_mergeMembers ho.keys_nodup hms k
    rw [hb, ho'] at hk
    obtain ⟨n, hn, e⟩ := map_eq_ok_iff.mp hk
    obtain ⟨n', hn', hat⟩ := ih (ho.child? (s := .key k) ho') hn hvb hwo
    refine ⟨n', by rwa [List.length_cons, Nat.add_comm p.length, ← Nat.add_assoc], ?_⟩
    rw [child?, ← e]
    exact hat

theorem mem_of_mergeMembers_eq_error {e : Error}
    (h : mergeMembers limit depth bs os = .error e) :
    ∃ o ∈ os, ∃ x, merge limit (depth + 1) x o.2 = .error e := by
  induction os generalizing bs with
  | nil => cases h
  | cons o rest ih =>
    obtain ⟨k, w⟩ := o
    rw [mergeMembers] at h
    split at h
    case _ old _ =>
      cases bind_eq_error_iff.mp h
      case inl h => exact ⟨(k, w), List.mem_cons_self, old, h⟩
      case inr h =>
        obtain ⟨_, _, h⟩ := h
        obtain ⟨o, ho, h⟩ := ih h
        exact ⟨o, List.mem_cons_of_mem _ ho, h⟩
    case _ =>
      obtain ⟨o, ho, h⟩ := ih h
      exact ⟨o, List.mem_cons_of_mem _ ho, h⟩

-- Values can only be too deep to be merged.
theorem eq_tooDeep_of_merge {e : Error} (h : merge limit depth base overlay = .error e) :
    e = .tooDeep limit := by
  induction overlay using childInduction generalizing base depth with
  | scalar w hs =>
    cases w <;> simp only [merge] at h
    case obj => cases hs
    all_goals
      split at h <;> cases h
      rfl
  | arr items _ =>
    simp only [merge] at h
    split at h <;> cases h
    rfl
  | obj os ih =>
    cases base
    case obj bs =>
      rw [merge] at h
      split at h
      case isTrue =>
        cases h
        rfl
      case isFalse =>
        cases hm : mergeMembers limit depth bs os with
        | ok ms => simp [hm, Except.map] at h
        | error e' =>
          obtain ⟨o, ho, x, hx⟩ := mem_of_mergeMembers_eq_error hm
          cases (Except.error.inj (hm ▸ h) : e' = e)
          exact ih o ho hx
    all_goals
      simp only [merge] at h
      split at h <;> cases h
      rfl

-- What the merging of two objects leaves where the steps lead out of the second one.
theorem at?_merge_of_not_mem {p : List String} {l : Location} (ho : overlay.WellFormed)
    (h : merge limit depth base overlay = .ok m) (hos : overlay.at? (p.map .key) = some (obj os))
    (hk : k ∉ Members.keys os) (hv : base.at? (p.map .key ++ .key k :: l) = some v) :
    m.at? (p.map .key ++ .key k :: l) = some v := by
  rw [at?_append] at hv ⊢
  obtain ⟨b, hb, hbv⟩ := Option.bind_eq_some_iff.mp hv
  obtain ⟨n, hn, hat⟩ := merge_at ho h hb hos
  rw [at?_cons] at hbv
  obtain ⟨c, hc, hcv⟩ := Option.bind_eq_some_iff.mp hbv
  cases b <;> simp only [child?, reduceCtorEq] at hc
  obtain ⟨_, ms, hms, e⟩ := merge_obj_obj_eq_ok_iff.mp hn
  subst e
  have hkept := get?_mergeMembers (ho.at? hos).keys_nodup hms k
  rw [Members.get?_eq_none_iff.mpr hk, hc] at hkept
  rw [hat, Option.bind_some, at?_cons, child?, ← Except.ok.inj hkept]
  exact hcv

-- The keys of a merged object, wherever two objects lie over each other.
theorem keys_at?_merge {p : List String} (ho : overlay.WellFormed)
    (h : merge limit depth base overlay = .ok m) (hb : base.at? (p.map .key) = some (obj bs))
    (hos : overlay.at? (p.map .key) = some (obj os)) :
    ∃ ms, m.at? (p.map .key) = some (obj ms) ∧
      Members.keys ms = Members.keys bs ++ (Members.keys os).filter (· ∉ Members.keys bs) := by
  obtain ⟨n, hn, hat⟩ := merge_at ho h hb hos
  obtain ⟨_, ms, hms, e⟩ := merge_obj_obj_eq_ok_iff.mp hn
  subst e
  exact ⟨ms, hat, keys_mergeMembers (ho.at? hos).keys_nodup hms⟩

end

variable {o : Options} {base m : Json} {overlay : List (String × Json)}

-- What an object that is merged into a value leaves there.
theorem mergeWith_laws (ho : (obj overlay).WellFormed)
    (h : base.mergeWith o (obj overlay) = .ok m) :
    (∀ place, (Predicate.members overlay).accepts place m = true) ∧
    (∀ (p : List String) os k l v, (obj overlay).at? (p.map .key) = some (obj os) →
      k ∉ Members.keys os → base.at? (p.map .key ++ .key k :: l) = some v →
        m.at? (p.map .key ++ .key k :: l) = some v) ∧
    (∀ (p : List String) bs os, base.at? (p.map .key) = some (obj bs) →
      (obj overlay).at? (p.map .key) = some (obj os) → ∃ ms, m.at? (p.map .key) = some (obj ms) ∧
        Members.keys ms = Members.keys bs ++ (Members.keys os).filter (· ∉ Members.keys bs)) ∧
    (m.mergeWith o (obj overlay) = .ok m ∨
      m.mergeWith o (obj overlay) = .error (.tooDeep o.maxDepth)) ∧
    (base = obj overlay → m = base) := by
  have hm : m.Extends (obj overlay) := extends_of_merge ho h
  refine ⟨fun place => ?fits, fun p os k l v hos hk hv => at?_merge_of_not_mem ho h hos hk hv,
    fun p bs os hb hos => keys_at?_merge ho h hb hos, ?again, ?itself⟩
  case fits =>
    have hf := hm.fits ho
    cases hm
    case plain h => exact absurd rfl h
    case object => exact hf
  case again =>
    cases hr : m.mergeWith o (obj overlay) with
    | ok r    => exact .inl (congrArg _ (hm.eq_of_merge hr))
    | error e => exact .inr (congrArg _ (eq_tooDeep_of_merge hr))
  case itself =>
    intro e
    subst e
    exact (Extends.refl ho).eq_of_merge h

theorem mergeWith_laws_nested :
    let o := { Options.default with maxDepth := 2 }
    let base : Json := .obj [("a", .obj [("x", .int 1), ("y", .null)]), ("b", .int 2)]
    let overlay := [("c", .bool true), ("b", .obj [("z", .obj [("w", .int 3)])]),
      ("a", .obj [("y", .int 4)])]
    let m : Json := .obj [("a", .obj [("x", .int 1), ("y", .int 4)]),
      ("b", .obj [("z", .obj [("w", .int 3)])]), ("c", .bool true)]
    base.mergeWith o (.obj overlay) = .ok m ∧
      (∀ place, (Predicate.members overlay).accepts place m = true) ∧
      m.at? [.key "a", .key "x"] = some (.int 1) ∧
      (∃ ms, m.at? [.key "a"] = some (.obj ms) ∧ Members.keys ms = ["x", "y"]) ∧
      m.mergeWith o (.obj overlay) = .error (.tooDeep 2) := by
  intro o base overlay m
  have ho : (obj overlay).WellFormed := by
    simp [overlay, WellFormed, WellFormedMembers, Members.keys, Json.int]
  have hm : base.mergeWith o (.obj overlay) = .ok m := by
    simp [mergeWith, o, base, overlay, m, merge, mergeMembers, Members.get?, Members.insert,
      Json.int, Except.map, bind, Except.bind]
  have hne : m.mergeWith o (.obj overlay) ≠ .ok m := by
    simp [mergeWith, o, overlay, m, merge, mergeMembers, Members.get?, Members.insert, Json.int,
      Except.map, bind, Except.bind]
  obtain ⟨hfits, hkept, hkeys, hagain, _⟩ := mergeWith_laws ho hm
  exact ⟨hm, hfits, hkept ["a"] [("y", .int 4)] "x" [] _ rfl (by decide) rfl,
    hkeys ["a"] _ _ rfl rfl, hagain.resolve_left hne⟩

end Json

end JsonQuery
