import JsonQuery.Proofs.Concatenation
import JsonQuery.Proofs.Finding

namespace JsonQuery

variable {limit limit' : Nat}

namespace Json

mutual

theorem merge_cutShort (h : limit ≤ limit') : (depth : Nat) → (base overlay : Json) →
    CutShort (· = .tooDeep limit) (merge limit depth base overlay) (merge limit' depth base overlay)
  | depth, base, overlay => by
    have hroom := Roomier.of_le h depth
    cases overlay <;> simp only [merge]
    case obj ms =>
      refine hroom.guard fun _ => ?_
      cases base
      case obj old => exact (mergeMembers_cutShort h depth old ms).map obj
      all_goals exact .same _
    all_goals exact hroom.guard fun _ => .same _

theorem mergeMembers_cutShort (h : limit ≤ limit') : (depth : Nat) →
    (ms overlay : List (String × Json)) →
    CutShort (· = .tooDeep limit) (mergeMembers limit depth ms overlay)
      (mergeMembers limit' depth ms overlay)
  | _, _, [] => .same _
  | depth, ms, (k, v) :: rest => by
    rw [mergeMembers, mergeMembers]
    cases Members.get? ms k with
    | none     => exact mergeMembers_cutShort h depth _ rest
    | some old =>
      refine (merge_cutShort h (depth + 1) old v).bind fun new => ?_
      exact mergeMembers_cutShort h depth _ rest

end

end Json

namespace Flat

variable {cut : Error → Prop} {separator : Char} {maxPadding : Nat}

theorem member_cutShort {f g : List (List Char × Json) → Except Error Json}
    (h : ∀ entries, CutShort cut (f entries) (g entries)) (path : List Char)
    (members : List (Option (List Char) × Json)) :
    CutShort cut (member path members f) (member path members g) := by
  unfold member
  split
  case _ => exact .same _
  case _ =>
    split
    case isTrue  => exact .same _
    case isFalse => exact h _

-- Every group is rebuilt one level further down.
theorem build_cutShort (h : limit ≤ limit') (depth : Nat) (above : List Char)
    (entries : List (List Char × Json)) :
    CutShort (· = .tooDeep limit) (build separator maxPadding limit depth above entries)
      (build separator maxPadding limit' depth above entries) := by
  rw [build, build]
  refine (Roomier.of_le h depth).guard fun hd => ?_
  refine CutShort.bind (CutShort.mapM fun g _ => ?_) fun children => .same _
  refine CutShort.bind (member_cutShort (fun nested => ?_) _ g.2) fun x => .same _
  exact build_cutShort h (depth + 1) _ nested
termination_by limit + 1 - depth

end Flat

-- A computation with a depth limit that ends in the same way under every larger limit, unless it has
-- come to where it goes too deep.
def OnlyCutsOff {α : Type} (run : Nat → Except Error α) : Prop :=
  ∀ d d', d ≤ d' → run d ≠ .error (.tooDeep d) → run d' = run d

theorem onlyCutsOff_of_cutShort {α : Type} {run : Nat → Except Error α}
    (h : ∀ d d', d ≤ d' → CutShort (· = .tooDeep d) (run d) (run d')) : OnlyCutsOff run :=
  fun d d' hd hr => (h d d' hd).eq fun _ he hc => hr (hc ▸ he)

-- A value that lies too deep for a search has to lie too deep for the smaller limit.
theorem Json.findPaths_cutShort {d d' : Nat} (h : d ≤ d') (o : SearchOptions) (m : Matcher)
    (v : Json) : CutShort (· = .tooDeep d) (v.findPaths { o with maxDepth := d } m)
      (v.findPaths { o with maxDepth := d' } m) := by
  rw [findPaths_eq, findPaths_eq]
  split
  case isTrue =>
    apply CutShort.stopped
    rfl
  case isFalse hn =>
    have hn' : ¬ ((v.preorder []).any fun n => d' < n.1.length) = true := by
      simp only [List.any_eq_true, decide_eq_true_eq, not_exists, not_and, Nat.not_lt] at hn ⊢
      exact fun n hm => Nat.le_trans (hn n hm) h
    rw [if_neg hn']
    exact .same _

-- A larger depth limit changes nothing but what was cut off.
theorem depth_only_cuts_off :
    (∀ (p : Path) (o : Options) v,
      OnlyCutsOff fun d => (Query.mk p { o with maxDepth := d }).get v) ∧
    (∀ (f : Builtin) (o : Options) depth v,
      OnlyCutsOff fun d => f.apply { o with maxDepth := d } depth v) ∧
    (∀ (o : SearchOptions) pattern (v : Json), OnlyCutsOff fun d => do
      let m ← Matcher.ofPattern { o with maxDepth := d } pattern
      v.findPaths { o with maxDepth := d } m) ∧
    (∀ (o : Options) flat, OnlyCutsOff fun d => Json.unflat { o with maxDepth := d } flat) ∧
    ∀ (o : Options) (base overlay : Json),
      OnlyCutsOff fun d => base.mergeWith { o with maxDepth := d } overlay := by
  refine ⟨fun p o v => ?get, fun f o depth v => ?apply, fun o pattern v => ?find,
    fun o flat => ?unflat, fun o base overlay => ?merge⟩
  all_goals refine onlyCutsOff_of_cutShort fun d d' hd => ?_
  case get =>
    simp only [Query.get, Cursor.all_eq_told]
    exact (Path.told_cutShort (.of_maxDepth o hd 0) rfl p v).all.map _
  case apply => exact Builtin.apply_cutShort (.of_maxDepth o hd depth) f v
  case find =>
    have hm : Matcher.ofPattern { o with maxDepth := d' } pattern =
        Matcher.ofPattern { o with maxDepth := d } pattern := rfl
    rw [hm]
    refine CutShort.bind (.same _) fun m => Json.findPaths_cutShort hd o m v
  case unflat =>
    simp only [Json.unflat, Flat.unflatten]
    split
    case _ => exact .same _
    case _ => exact Flat.build_cutShort hd 0 _ _
  case merge => exact Json.merge_cutShort hd 0 base overlay

-- The path of a field starts one level further down than the construct.
theorem depth_only_cuts_off_field :
    let v : Json := .obj [("a", .arr [.int 1, .int 2])]
    let p : Path := [.construct [("x", [.key "a" false, .elements false])]]
    let get d := (Query.mk p { Options.default with maxDepth := d }).get v
    get 2 = .error (.tooDeep 2) ∧ ∀ d, 3 ≤ d → get d = .ok [.obj [("x", .arr [.int 1, .int 2])]] := by
  intro v p get
  have ⟨hget, _⟩ := depth_only_cuts_off
  have h2 : get 2 = .error (.tooDeep 2) := (Query.get_eq_values rfl p v).trans rfl
  have h3 : get 3 = .ok [.obj [("x", .arr [.int 1, .int 2])]] :=
    (Query.get_eq_values rfl p v).trans rfl
  have hn : get 3 ≠ .error (.tooDeep 3) := fun he => nomatch h3.symm.trans he
  exact ⟨h2, fun d hd => (hget p .default v 3 d hd hn).trans h3⟩

end JsonQuery
