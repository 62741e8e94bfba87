import Mathlib.Data.List.Basic
import JsonQuery.Proofs.Locations
import JsonQuery.Proofs.Reads

namespace JsonQuery

-- The path that reads what a write to this one reaches: a slice at the end stands for its elements.
def Path.spread (p : Path) : Path :=
  match p.getLast? with
  | some (.slice _) => p ++ [.elements false]
  | _               => p

-- Whether a result of a read stands for an optional index that leads nowhere.
def Match.isMiss (p : Path) (m : Match) : Bool :=
  match p.getLast? with
  | some (.index _ true) => m.value = .null && m.location.length < p.height
  | _                    => false

namespace Path

theorem spread_snoc (q : Path) (s : Segment) : spread (q ++ [s]) = q ++ spread [s] := by
  cases s <;> simp [spread]

theorem spread_eq_self {p : Path} (h : ∀ s, p.getLast? = some s → s.isSlice = false) :
    p.spread = p := by
  simp only [spread]
  split
  case _ sl hs => cases h _ hs
  case _       => rfl

theorem spread_of_not_slice {s : Segment} (h : s.isSlice = false) : spread [s] = [s] := by
  cases s <;> first | rfl | cases h

end Path

namespace View

variable {v c : Json} {u w : View} {s : Segment} {t : Step} {p q : Path} {sl : Slice}
  {items : List Json} {is : List Nat} {m : Match}

-- The children that are seen are followed to their places in the document.
theorem location_follow (h : u.Within v) (hf : u.Faithful) (hs : u.stray? s = none)
    (hn : s.isSlice = false) :
    (u.follow s).map (·.location) = (s.steps u.value).map fun t => u.location ++ [u.source t] := by
  have hc : ∀ t ∈ s.steps u.value, ∃ c, u.node.child? (u.source t) = some c := by
    intro t ht
    obtain ⟨c, hc, _⟩ := h.at?_location hf hs ht
    exact ⟨c, h.child?_source hf hc⟩
  rw [follow_of_not_slice hn]
  generalize s.steps u.value = ts at hc
  induction ts with
  | nil => rfl
  | cons t rest ih =>
    obtain ⟨⟨c, hc⟩, hr⟩ := List.forall_mem_cons.mp hc
    simp [View.child?, hc, ih hr]

-- A faithful view shows as many elements as it counts.
theorem Faithful.value_arr (hf : u.Faithful) (hn : u.node = .arr items) :
    ∃ shown, u.value = .arr shown ∧ shown.length = u.origin.elim items.length List.length := by
  cases ho : u.origin with
  | none    => exact ⟨items, (value_of_origin_eq_none ho).trans hn, rfl⟩
  | some is => exact ⟨_, value_of_origin ho hn, hf.length_value ho hn⟩

-- The elements behind a slice stand where the slice says.
theorem location_follow_narrow (hv : v.WellFormed) (h : u.Within v) (hf : u.Faithful)
    (hn : u.node = .arr items) (hs : u.stray? (.slice sl) = none) (hw : sl.fits = true) :
    ((u.narrow sl items).follow (.elements false)).map (·.location) =
      ((Segment.slice sl).steps u.value).map fun t => u.location ++ [u.source t] := by
  obtain ⟨shown, hval, hlen⟩ := hf.value_arr hn
  have hin : (u.narrow sl items).Within v := ⟨h.at?_eq, fun _ _ => ⟨items, hn⟩⟩
  have hfn := hf.narrow hv h hn hs hw
  have ho : (u.narrow sl items).origin = some ((sl.indices shown.length).map u.sourceIndex) := by
    rw [hlen]; rfl
  have hshown := hfn.length_value ho hn
  rw [location_follow hin hfn (by simp [stray?]) rfl, value_of_origin ho hn, hval]
  refine List.ext_getElem ?_ fun i hi hi' => ?_
  case refine_1 => simpa [Segment.steps, Json.steps] using hshown
  case refine_2 =>
    have hi : i < (sl.indices shown.length).length := by simpa [Segment.steps] using hi'
    have hloc : (u.narrow sl items).location = u.location := rfl
    simp [Segment.steps, Json.steps, source, sourceIndex, ho, hi, hloc]

theorem expand_singleton (u : View) (s : Segment) : u.expand [s] = u.follow s := by
  simp [expand]

-- The locations of the last segment are those that the path goes on to when it is spread.
theorem locations_eq_expand (hv : v.WellFormed) (h : u.Within v) (hf : u.Faithful)
    (hs : u.stray? s = none) (hw : s.fits = true) :
    u.locations s false = (u.expand (Path.spread [s])).map (·.location) := by
  rw [locations_of_not_absent]
  cases hn : s.isSlice
  case false => rw [Path.spread_of_not_slice hn, expand_singleton, location_follow h hf hs hn]
  case true =>
    cases s <;> simp only [Segment.isSlice, Bool.false_eq_true] at hn
    case slice sl =>
      have e : u.expand (Path.spread [.slice sl]) =
          (u.follow (.slice sl)).flatMap (·.follow (.elements false)) := by
        simp [Path.spread, expand]
      rw [e]
      by_cases ha : ∃ items, u.node = .arr items
      case pos =>
        obtain ⟨items, ha⟩ := ha
        rw [follow_slice ha, List.flatMap_singleton, location_follow_narrow hv h hf ha hs hw]
      case neg =>
        have ha : ∀ items, u.node ≠ .arr items := fun items hi => ha ⟨items, hi⟩
        have hsteps : (Segment.slice sl).steps u.value = [] := by
          rw [h.value_eq_of_not_arr ha]
          cases hc : u.node
          case arr items => exact absurd hc (ha items)
          all_goals rfl
        rw [h.follow_slice_of_not_arr ha, hsteps]
        rfl

theorem found_snoc (u : View) (q : Path) (s : Segment) :
    u.found (q ++ [s]) = (u.expand q).flatMap (·.found [s]) := by
  induction q generalizing u with
  | nil => simp [expand]
  | cons t rest ih =>
    have hm : u.misses t (rest ++ [s]).isEmpty = false := by
      cases hm : u.misses t (rest ++ [s]).isEmpty
      case false => rfl
      case true => simpa using (misses_eq_true_iff.mp hm).2.1
    simp [found, hm, expand, List.flatMap_assoc, ih]

-- The results at the end of a path that are not misses are its views.
theorem found_singleton (h : u.Within v) (hq : u.location.length = Path.height q) :
    (u.found [s]).filter (!·.isMiss (q ++ [s])) =
      (u.follow s).map fun w => ⟨w.location, w.value⟩ := by
  cases hm : u.misses s true
  case true =>
    obtain ⟨⟨i, e⟩, _, hf⟩ := misses_eq_true_iff.mp hm
    subst e
    simp [found, hm, hf, Match.isMiss, Path.height, hq, Segment.isSlice]
  case false =>
    have e : u.found [s] = (u.follow s).map fun w => ⟨w.location, w.value⟩ := by
      simp [found, hm, List.map_eq_flatMap]
    rw [e, List.filter_eq_self]
    intro m hm
    obtain ⟨w, hw, e⟩ := List.mem_map.mp hm
    obtain ⟨l, hl, hn⟩ := h.location_of_follow hw
    have hlen : m.location.length = Path.height (q ++ [s]) := by
      simp only [← e, hl, List.length_append, hq, hn, Path.height, List.countP_append]
    simp only [Match.isMiss, hlen, Nat.lt_irrefl, Bool.and_false, decide_false]
    split <;> rfl

-- What a read finds, its misses left out, is what the path leads to.
theorem found_eq_expand (v : Json) (p : Path) :
    ((View.root v).found p).filter (!·.isMiss p) =
      ((View.root v).expand p).map fun w => ⟨w.location, w.value⟩ := by
  cases List.eq_nil_or_concat' p
  case inl hp =>
    subst hp
    rfl
  case inr hp =>
    obtain ⟨q, s, rfl⟩ := hp
    rw [found_snoc, expand_append, List.filter_flatMap, List.map_flatMap]
    refine List.flatMap_congr fun u hu => ?_
    obtain ⟨l, hl, hn⟩ := (Within.root v).location_of_expand hu
    rw [expand_singleton]
    exact found_singleton ((Within.root v).expand hu) (by simp [hl, hn, View.root])

theorem nodup_follow (hv : v.WellFormed) (h : u.Within v) (hf : u.Faithful)
    (hs : u.stray? s = none) : ((u.follow s).map (·.location)).Nodup := by
  cases hn : s.isSlice
  case false =>
    rw [location_follow h hf hs hn]
    have hd : (s.steps u.value).Nodup :=
      Segment.nodup_steps (h.wellFormed_value hv hf) fun sl _ e => by simp [e, Segment.isSlice] at hn
    have hc {t : Step} : t ∈ s.steps u.value → (u.value.child? t).isSome :=
      Segment.child?_isSome_of_mem_steps (stray?_eq_none_iff.mp hs)
    simp only [List.Nodup, List.pairwise_map]
    refine hd.imp_of_mem fun {t t'} ht ht' hne e => hne ?_
    exact h.source_inj hf (hc ht) (hc ht') (by simpa using e)
  case true =>
    cases s <;> simp only [Segment.isSlice, Bool.false_eq_true] at hn
    case slice sl =>
      by_cases ha : ∃ items, u.node = .arr items
      case pos =>
        obtain ⟨items, ha⟩ := ha
        simp [follow_slice ha]
      case neg => simp [h.follow_slice_of_not_arr fun items hi => ha ⟨items, hi⟩]

-- A path whose slices stay within their arrays leads to no location twice.
theorem Faithful.nodup_expand (hv : v.WellFormed) (h : u.Within v) (hf : u.Faithful)
    (hs : u.staysWithin p = true) (hw : ∀ s ∈ p, s.fits = true) :
    ((u.expand p).map (·.location)).Nodup := by
  induction p generalizing u with
  | nil => simp [View.expand]
  | cons s rest ih =>
    obtain ⟨hs, hr⟩ := staysWithin_cons.mp hs
    obtain ⟨hw, hwr⟩ := List.forall_mem_cons.mp hw
    rw [View.expand, List.map_flatMap, List.Nodup, List.pairwise_flatMap]
    refine ⟨fun w hm => ih (h.follow hm) (hf.follow hv h hs hw hm) (hr w hm) hwr, ?_⟩
    -- Views with different locations of one length lead to different locations.
    have hd := nodup_follow hv h hf hs
    rw [List.Nodup, List.pairwise_map] at hd
    refine hd.imp_of_mem fun {w w'} hm hm' hne l hl l' hl' e => hne ?_
    obtain ⟨x, hx, e₁⟩ := List.mem_map.mp hl
    obtain ⟨x', hx', e₂⟩ := List.mem_map.mp hl'
    obtain ⟨k, hk, _⟩ := (h.follow hm).location_of_expand hx
    obtain ⟨k', hk', _⟩ := (h.follow hm').location_of_expand hx'
    obtain ⟨j, hj, hn⟩ := h.location_of_follow hm
    obtain ⟨j', hj', hn'⟩ := h.location_of_follow hm'
    have hlen : w.location.length = w'.location.length := by simp [hj, hj', hn, hn']
    exact (List.append_inj (hk.symm.trans (e₁.trans (e.trans (e₂.symm.trans hk')))) hlen).1

end View

namespace Path

variable {v : Json} {p : Path} {o : Options} {limit : Nat} {ls : List Location}

-- Where no slice leads out of its array, a path leads to the locations that its spread form reads.
theorem targets_eq_expand (hv : v.WellFormed) (hw : ∀ s ∈ p, s.fits = true)
    (hs : (View.root v).staysWithin p = true) (hd : p.length ≤ limit) :
    targets limit false v p = .ok (((View.root v).expand p.spread).map (·.location)) := by
  cases List.eq_nil_or_concat' p
  case inl hp =>
    subst hp
    exact targets_nil
  case inr hp =>
    obtain ⟨q, s, rfl⟩ := hp
    obtain ⟨hq, hs⟩ := View.staysWithin_append.mp hs
    obtain ⟨hwq, hws⟩ := List.forall_mem_append.mp hw
    rw [targets_snoc hd, spread_snoc, View.expand_append, List.map_flatMap]
    refine congrArg Except.ok (List.flatMap_congr fun u hu => ?_)
    have hin := (View.Within.root v).expand hu
    have hf := (View.faithful_of_origin_eq_none rfl).expand hv (View.Within.root v) hq hwq hu
    exact View.locations_eq_expand hv hin hf (View.staysWithin_cons.mp (hs u hu)).1 (hws s (by simp))

theorem staysWithin_spread : (View.root v).staysWithin p.spread = (View.root v).staysWithin p := by
  simp only [spread]
  split
  case _ =>
    rw [Bool.eq_iff_iff, View.staysWithin_append]
    simp [View.staysWithin, View.stray?]
  case _ => rfl

theorem length_spread_le (p : Path) : p.spread.length ≤ p.length + 1 := by
  simp only [spread]
  split <;> simp

theorem forall_mem_spread {P : Segment → Prop} (he : P (.elements false)) (h : ∀ s ∈ p, P s) :
    ∀ s ∈ p.spread, P s := by
  intro s hs
  simp only [spread] at hs
  split at hs
  case _ =>
    cases List.mem_append.mp hs
    case inl hs => exact h s hs
    case inr hs => exact List.mem_singleton.mp hs ▸ he
  case _ => exact h s hs

-- All results of a read that is not strict.
theorem all_lenient (hf : o.onlyFirst = false) (hs : o.strict = false)
    (ha : ∀ s ∈ p, s.isAddressable = true) (hd : p.length ≤ o.maxDepth) :
    ((View.root v).staysWithin p = true → (p.cursor o v).all = .ok ((View.root v).found p)) ∧
    ((View.root v).staysWithin p = false →
      ∃ i n, (p.cursor o v).all = .error (.outOfBounds i n)) := by
  have hdepth : 0 + p.length ≤ o.maxDepth := by omega
  have hall : (p.cursor o v).all = (Frame.runOf o.maxDepth (stages o p) 0 (.root v)).all := by
    rw [Cursor.all_eq_run _ hf, cursor, Cursor.run_start]
  rw [hall]
  refine ⟨fun hw => ?within, fun hw => ?stray⟩
  case within => rw [Frame.runOf_of_staysWithin hs ha hdepth hw]; rfl
  case stray =>
    obtain ⟨i, n, he⟩ := Frame.error?_runOf hs ha hdepth hw
    exact ⟨i, n, by rw [Run.all, he]⟩

theorem all_spread (hf : o.onlyFirst = false) (hs : o.strict = false)
    (ha : ∀ s ∈ p, s.isAddressable = true) (hd : p.length < o.maxDepth) :
    ((View.root v).staysWithin p = true →
      (p.spread.cursor o v).all = .ok ((View.root v).found p.spread)) ∧
    ((View.root v).staysWithin p = false →
      ∃ i n, (p.spread.cursor o v).all = .error (.outOfBounds i n)) := by
  rw [← staysWithin_spread]
  refine all_lenient hf hs (forall_mem_spread rfl ha) ?_
  have := length_spread_le p
  omega

theorem nodup_targets (hv : v.WellFormed) (hw : ∀ s ∈ p, s.fits = true)
    (hs : (View.root v).staysWithin p = true) (ht : targets limit false v p = .ok ls) : ls.Nodup := by
  have e := (targets_eq_expand hv hw hs (length_le_of_targets ht)).symm.trans ht
  rw [← Except.ok.inj e]
  exact (View.faithful_of_origin_eq_none rfl).nodup_expand hv (View.Within.root v)
    (staysWithin_spread.trans hs) (forall_mem_spread rfl hw)

-- A write reaches exactly what a read finds. The results of a read that is not strict have the
-- locations that a write goes to, in the same order and each of them once, where the path is spread
-- over the elements of a last slice and an optional index that leads nowhere does not count. The read
-- fails only if a slice leads out of its array.
theorem targets_eq_reads (o : Options) (hv : v.WellFormed) (ha : ∀ s ∈ p, s.isAddressable = true)
    (hw : ∀ s ∈ p, s.fits = true) (hd : p.length < o.maxDepth) :
    let c := p.spread.cursor { o with strict := false, onlyFirst := false } v
    ((∃ ms, c.all = .ok ms) ↔ (View.root v).staysWithin p = true) ∧
    (∀ ms, c.all = .ok ms → ∃ ls, targets o.maxDepth false v p = .ok ls ∧
      ls = (ms.filter (!·.isMiss p.spread)).map (·.location) ∧ ls.Nodup ∧
      ∀ l ∈ ls, l.length = p.spread.height) ∧
    (∀ e, c.all = .error e → ∃ i n, e = .outOfBounds i n) ∧
    ∀ absent ls, targets o.maxDepth absent v p = .ok ls → ∀ l ∈ ls, ∀ m ∈ ls,
      l.length = m.length ∧ (l <+: m → l = m) := by
  intro c
  obtain ⟨hok, herror⟩ :=
    all_spread (o := { o with strict := false, onlyFirst := false }) (v := v) rfl rfl ha hd
  refine ⟨?succeeds, fun ms hms => ?agrees, fun e he => ?fails, fun absent ls ht l hl m hm => ?apart⟩
  case succeeds =>
    cases hs : (View.root v).staysWithin p
    case true => simp [c, hok hs]
    case false =>
      obtain ⟨i, n, he⟩ := herror hs
      simp [c, he]
  case agrees =>
    cases hs : (View.root v).staysWithin p
    case true =>
      cases (hok hs).symm.trans hms
      have ht := targets_eq_expand hv hw hs (Nat.le_of_lt hd)
      refine ⟨_, ht, ?filter, nodup_targets hv hw hs ht, fun l hl => ?length⟩
      case filter => simp [View.found_eq_expand]
      case length =>
        obtain ⟨u, hu, e⟩ := List.mem_map.mp hl
        obtain ⟨m, hm, hn⟩ := (View.Within.root v).location_of_expand hu
        rw [← e, hm, ← hn]
        rfl
    case false =>
      obtain ⟨i, n, he⟩ := herror hs
      cases he.symm.trans hms
  case fails =>
    cases hs : (View.root v).staysWithin p
    case true => cases (hok hs).symm.trans he
    case false =>
      obtain ⟨i, n, he'⟩ := herror hs
      exact ⟨i, n, Except.error.inj (he.symm.trans he')⟩
  case apart =>
    have hlen := length_eq_of_mem_targets ht hm hl
    exact ⟨hlen, fun hp => hp.eq_of_length hlen⟩

theorem targets_eq_reads_miss :
    let v : Json := .obj [("a", .arr [.arr [.int 0, .int 1], .arr [.int 2]])]
    let p : Path := [.key "a" false, .elements false, .index (-2) true]
    ∃ ms, (p.spread.cursor .default v).all = .ok ms ∧
      (ms.filter (!·.isMiss p.spread)).map (·.location) = [[.key "a", .index 0, .index 0]] := by
  intro v p
  have hv : v.WellFormed := by
    simp [v, Json.WellFormed, Json.WellFormedMembers, Json.WellFormedItems, Json.int, Members.keys]
  obtain ⟨h, h', _⟩ := targets_eq_reads .default hv (p := p) (by decide) (by decide) (by decide)
  obtain ⟨ms, hms⟩ := h.mpr (by decide)
  obtain ⟨ls, ht, e, _⟩ := h' ms hms
  exact ⟨ms, hms, e.symm.trans (Except.ok.inj (ht.symm.trans (by rfl)))⟩

end Path

end JsonQuery
