import JsonQuery.Proofs.Children
import JsonQuery.Proofs.Equality

namespace JsonQuery

namespace Json

variable {v w u x : Json} {ms want : List (String × Json)} {k : String}

-- Induction over a value by the members of its objects.
@[elab_as_elim]
theorem inductionOnMembers {motive : Json → Prop} (v : Json)
    (other : ∀ v, v.kind ≠ .object → motive v)
    (obj : ∀ ms, (∀ m ∈ ms, motive m.2) → motive (obj ms)) : motive v := by
  refine childInduction (fun v hs => other v fun e => ?_) (fun _ _ => other _ nofun) obj v
  cases v <;> cases e
  cases hs

theorem get?_of_fitsMembers (h : fitsMembers ms want = true) {m : String × Json} (hm : m ∈ want) :
    ∃ x, Members.get? ms m.1 = some x ∧ x.fits m.2 = true := by
  induction want with
  | nil => cases hm
  | cons a rest ih =>
    obtain ⟨h, hr⟩ := Bool.and_eq_true_iff.mp h
    cases List.mem_cons.mp hm
    case inr hm => exact ih hr hm
    case inl e =>
      subst e
      split at h
      case _ x hx => exact ⟨x, hx, h⟩
      case _ => cases h

theorem fits_obj_iff : v.fits (obj want) = true ↔
    ∃ ms, v = obj ms ∧ ∀ m ∈ want, ∃ x, Members.get? ms m.1 = some x ∧ x.fits m.2 = true := by
  cases v
  case obj ms =>
    constructor
    case mp => exact fun h => ⟨ms, rfl, fun _ => get?_of_fitsMembers h⟩
    case mpr =>
      rintro ⟨_, ⟨⟩, h⟩
      exact fitsMembers_of_forall h
  all_goals simp [fits, equal]

theorem fits_of_not_object (h : w.kind ≠ .object) : v.fits w = v.equal w := by
  cases w
  case obj => exact absurd rfl h
  all_goals cases v <;> rfl

theorem kind_eq_of_equal (h : v.equal w = true) : v.kind = w.kind := by
  cases v <;> cases w <;> first | rfl | cases h

theorem fits_of_equal (hv : v.WellFormed) (hw : w.WellFormed) (h : v.equal w = true) :
    v.fits w = true := by
  induction w using inductionOnMembers generalizing v with
  | other w hk => rwa [fits_of_not_object hk]
  | obj want ih =>
    cases v
    case obj ms =>
      have h := (equal_obj_iff hv.keys_nodup hw.keys_nodup).mp h
      refine fits_obj_iff.mpr ⟨ms, rfl, fun m hm => ?_⟩
      have h := h m.1
      rw [Members.get?_of_mem hw.keys_nodup hm] at h
      cases hx : Members.get? ms m.1 with
      | none   => simp [hx] at h
      | some x =>
        have hxm : x.equal m.2 = true := by simpa [hx] using h
        exact ⟨x, rfl, ih m hm (hv.child? (s := .key m.1) hx)
          (wellFormedMembers_iff.mp hw.2 m hm) hxm⟩
    all_goals cases h

-- What fits a value fits everything that this value fits.
theorem fits_trans (hv : v.WellFormed) (hw : w.WellFormed) (hu : u.WellFormed)
    (h : v.fits w = true) (h' : w.fits u = true) : v.fits u = true := by
  induction u using inductionOnMembers generalizing v w with
  | other u hk =>
    rw [fits_of_not_object hk] at h' ⊢
    rw [fits_of_not_object (kind_eq_of_equal h' ▸ hk)] at h
    exact equal_trans hv hw hu h h'
  | obj want ih =>
    obtain ⟨ns, rfl, hns⟩ := fits_obj_iff.mp h'
    obtain ⟨ms, rfl, hms⟩ := fits_obj_iff.mp h
    refine fits_obj_iff.mpr ⟨ms, rfl, fun m hm => ?_⟩
    obtain ⟨y, hy, hym⟩ := hns m hm
    obtain ⟨x, hx, hxy⟩ := hms (m.1, y) (Members.mem_of_get? hy)
    exact ⟨x, hx, ih m hm (hv.child? (s := .key m.1) hx) (hw.child? (s := .key m.1) hy)
      (wellFormedMembers_iff.mp hu.2 m hm) hxy hym⟩

-- Equal values fit the same patterns, and the same values fit equal patterns.
theorem fits_congr_left (hv : v.WellFormed) (hw : w.WellFormed) (hu : u.WellFormed)
    (h : v.equal w = true) : v.fits u = w.fits u := by
  have he := equal_symm hv hw h
  rw [Bool.eq_iff_iff]
  exact ⟨fits_trans hw hv hu (fits_of_equal hw hv he), fits_trans hv hw hu (fits_of_equal hv hw h)⟩

theorem fits_congr_right (hv : v.WellFormed) (hw : w.WellFormed) (hu : u.WellFormed)
    (h : w.equal u = true) : v.fits w = v.fits u := by
  have he := equal_symm hw hu h
  rw [Bool.eq_iff_iff]
  exact ⟨fun hf => fits_trans hv hw hu hf (fits_of_equal hw hu h),
    fun hf => fits_trans hv hu hw hf (fits_of_equal hu hw he)⟩

-- An object still fits a pattern when a member comes in that fits whatever the old one did.
theorem fits_insert (hx : ∀ y, Members.get? ms k = some y → ∀ u, y.fits u = true → x.fits u = true)
    (h : (obj ms).fits w = true) : (obj (Members.insert ms k x)).fits w = true := by
  cases w
  case obj want =>
    obtain ⟨_, ⟨⟩, h⟩ := fits_obj_iff.mp h
    refine fits_obj_iff.mpr ⟨_, rfl, fun m hm => ?_⟩
    obtain ⟨y, hy, hym⟩ := h m hm
    by_cases hk : k = m.1
    case pos =>
      subst hk
      exact ⟨x, Members.get?_insert_self, hx y hy m.2 hym⟩
    case neg => exact ⟨y, by rwa [Members.get?_insert_of_ne hk], hym⟩
  all_goals cases h

-- A new key at the end of a way through objects keeps all that the whole object fits.
theorem fits_of_newKey {p : List String} (hv : v.at? (p.map .key) = some (obj ms))
    (hk : k ∉ Members.keys ms) (x : Json) :
    ∃ r, v.alter? (p.map .key) (·.addChild? (.key k) x) = some r ∧
      ∀ w, v.fits w = true → r.fits w = true := by
  induction p generalizing v with
  | nil =>
    cases hv
    refine ⟨_, rfl, fun w h => fits_insert (fun y hy => ?_) h⟩
    exact absurd (Members.mem_keys_of_get? hy) hk
  | cons j p ih =>
    rw [List.map_cons, at?_cons] at hv
    obtain ⟨c, hc, hv⟩ := Option.bind_eq_some_iff.mp hv
    obtain ⟨d, hd, hf⟩ := ih hv
    cases v <;> simp only [child?, reduceCtorEq] at hc
    case obj ns =>
      refine ⟨obj (Members.insert ns j d), ?_, fun w h => fits_insert (fun y hy => ?_) h⟩
      · simp [alter?_cons, alterChild?, hc, hd]
      · cases hc.symm.trans hy
        exact hf

end Json

namespace Predicate

open Json

variable {place : Place} {as bs cs : List (String × Json)}

theorem accepts_members (place : Place) (v : Json) (want : List (String × Json)) :
    (members want).accepts place v = v.fits (obj want) := by
  cases v <;> rfl

-- Objects as patterns: every object fits itself, what fits an object fits all that it fits, equal
-- values fit the same patterns, equal patterns are fitted by the same values, and new keys do no
-- harm.
theorem members_preorder (place : Place) (ha : (obj as).WellFormed) (hb : (obj bs).WellFormed)
    (hc : (obj cs).WellFormed) :
    (members as).accepts place (obj as) = true ∧
    ((members bs).accepts place (obj as) = true → (members cs).accepts place (obj bs) = true →
      (members cs).accepts place (obj as) = true) ∧
    (∀ v w : Json, v.WellFormed → w.WellFormed → v.equal w = true →
      (members cs).accepts place v = (members cs).accepts place w) ∧
    ((obj as).equal (obj bs) = true → ∀ v : Json, v.WellFormed →
      (members as).accepts place v = (members bs).accepts place v) ∧
    (∀ (p : List String) ms k x, (obj as).at? (p.map .key) = some (obj ms) → k ∉ Members.keys ms →
      ∃ grown, (obj as).alter? (p.map .key) (·.addChild? (.key k) x) = some grown ∧
        ((members cs).accepts place (obj as) = true →
          (members cs).accepts place grown = true)) := by
  simp only [accepts_members]
  refine ⟨fits_of_equal ha ha (equal_self ha), fits_trans ha hb hc,
    fun v w hv hw => fits_congr_left hv hw hc, fun h v hv => fits_congr_right hv ha hb h,
    fun p ms k x hat hk => ?_⟩
  obtain ⟨grown, hg, hf⟩ := fits_of_newKey hat hk x
  exact ⟨grown, hg, hf (obj cs)⟩

-- Objects inside of an array have to be equal, those inside of objects may have other keys.
theorem members_preorder_nested :
    let two : Json :=
      .num (.float ⟨false, 0x10000000000000, 1023, by decide, by decide, .inr (by decide)⟩)
    let inner := [("x", Json.int 1), ("y", .arr [.obj [("z", .int 2)]])]
    let as := [("b", .null), ("a", .obj inner)]
    let bs := [("a", .obj [("y", .arr [.obj [("z", two)]])])]
    let cs := [("a", .obj [])]
    let place := Place.name "k"
    (members bs).accepts place (.obj as) = true ∧ (members cs).accepts place (.obj bs) = true ∧
      (members cs).accepts place (.obj as) = true ∧
      ∃ grown, (Json.obj as).alter? [.key "a"] (·.addChild? (.key "w") two) = some grown ∧
        (members cs).accepts place grown = true := by
  intro two inner as bs cs place
  have ha : (obj as).WellFormed := by
    simp [as, inner, WellFormed, WellFormedItems, WellFormedMembers, Members.keys, Json.int]
  have hb : (obj bs).WellFormed := by
    simp [bs, two, WellFormed, WellFormedItems, WellFormedMembers, Members.keys]
  have hc : (obj cs).WellFormed := by simp [cs, WellFormed, WellFormedMembers, Members.keys]
  have hab : (members bs).accepts place (.obj as) = true := by decide +kernel
  have hbc : (members cs).accepts place (.obj bs) = true := by decide +kernel
  obtain ⟨_, htrans, _, _, hgrow⟩ := members_preorder place ha hb hc
  have hac := htrans hab hbc
  obtain ⟨grown, hg, hf⟩ := hgrow ["a"] inner "w" two rfl (by decide)
  exact ⟨hab, hbc, hac, grown, hg, hf hac⟩

end Predicate

end JsonQuery
