import JsonQuery.Proofs.Concatenation

namespace JsonQuery

-- The slices that a path ends in, one after another.
def Path.lastSlices (p : Path) : List Slice :=
  p.foldl (fun run s => match s with | .slice sl => run ++ [sl] | _ => []) []

-- A match tells the truth about a document: its value is the one at its location, or behind slices
-- the elements of the array there that they select one after another.
def Match.Holds (v : Json) (p : Path) (m : Match) : Prop :=
  match p.lastSlices with
  | []     => v.at? m.location = some m.value
  | slices =>
    ∃ items found, v.at? m.location = some (.arr items) ∧
      slices.foldlM (fun items s => s.cut items) items = .ok found ∧ m.value = .arr found

-- A spot that is reached by a path does so, and its children stand where they are told to be.
structure Spot.Sound (v : Json) (p : Path) (u : Spot) : Prop where
  holds : u.toMatch.Holds v p
  child : ∀ t c, u.value.child? t = some c → v.at? (u.location ++ [u.step t]) = some c

-- The values that a path goes on with, also where nothing follows.
def Path.walk (o : Options) : Path → (depth : Nat) → Spot → Run Spot
  | [], depth, u => if o.maxDepth < depth then .fail (.tooDeep o.maxDepth) else .one u
  | s :: rest, depth, u =>
    if o.maxDepth < depth then .fail (.tooDeep o.maxDepth)
    else
      match s.visit o false depth u with
      | .error e      => .fail e
      | .ok (.inl _)  => .nothing
      | .ok (.inr ws) => .inTurn (walk o rest (deeper depth)) ws

namespace Path

variable {p : Path} {s : Segment} {sl : Slice}

theorem lastSlices_slice (p : Path) (sl : Slice) :
    lastSlices (p ++ [.slice sl]) = lastSlices p ++ [sl] := by
  simp [lastSlices]

theorem lastSlices_of_not_slice (h : s.isSlice = false) (p : Path) :
    lastSlices (p ++ [s]) = [] := by
  cases s <;> simp only [Segment.isSlice, Bool.true_eq_false] at h <;> simp [lastSlices]

end Path

namespace Match

variable {v : Json} {p : Path} {m : Match} {items : List Json}

theorem holds_of_eq_nil (h : p.lastSlices = []) :
    m.Holds v p ↔ v.at? m.location = some m.value := by
  simp [Holds, h]

theorem holds_of_ne_nil (h : p.lastSlices ≠ []) : m.Holds v p ↔
    ∃ items found, v.at? m.location = some (.arr items) ∧
      p.lastSlices.foldlM (fun items s => s.cut items) items = .ok found ∧ m.value = .arr found := by
  unfold Holds
  split
  case _ hn => exact absurd hn h
  case _ => exact Iff.rfl

-- An array that is told was cut from one of the document.
theorem Holds.exists_items (h : m.Holds v p) (hm : m.value = .arr items) :
    ∃ all, v.at? m.location = some (.arr all) ∧
      p.lastSlices.foldlM (fun items s => s.cut items) all = .ok items := by
  by_cases hp : p.lastSlices = []
  case pos => exact ⟨items, hm ▸ (holds_of_eq_nil hp).mp h, by rw [hp]; rfl⟩
  case neg =>
    have ⟨all, found, hl, hf, e⟩ := (holds_of_ne_nil hp).mp h
    have e : found = items := Json.arr.inj (e.symm.trans hm)
    exact ⟨all, hl, e ▸ hf⟩

end Match

namespace Spot

variable {v : Json} {p : Path} {s : Segment} {sl : Slice} {u w : Spot} {items : List Json}
  {last : Bool} {ws : List Spot} {t : Step} {c : Json}

-- A value that stands at its location has its children there.
theorem sound_of_at? (hp : p.lastSlices = []) (hi : u.indices = none)
    (hv : v.at? u.location = some u.value) : u.Sound v p where
  holds := (Match.holds_of_eq_nil hp).mpr hv
  child t c hc := by
    have hs : u.step t = t := by cases t <;> simp [step, index, hi]
    rw [hs, Json.at?_snoc, hv]
    exact hc

theorem sound_root (v : Json) : (root v).Sound v [] :=
  sound_of_at? rfl rfl rfl

theorem Sound.child? (h : u.Sound v p) (hs : s.isSlice = false) (hw : u.child? t = some w) :
    w.Sound v (p ++ [s]) := by
  have ⟨c, hc, e⟩ := Option.map_eq_some_iff.mp hw
  exact e ▸ sound_of_at? (Path.lastSlices_of_not_slice hs p) rfl (h.child t c hc)

-- A slice of what is seen picks elements that stand where they did before.
theorem Sound.part (h : u.Sound v p) (hv : u.value = .arr items) (hw : u.part sl items = .ok w) :
    w.Sound v (p ++ [.slice sl]) := by
  have ⟨found, hf, e⟩ := map_eq_ok_iff.mp hw
  subst e
  constructor
  case holds =>
    have ⟨all, hl, hc⟩ := h.holds.exists_items hv
    have hp : Path.lastSlices (p ++ [.slice sl]) ≠ [] := by simp [Path.lastSlices_slice]
    refine (Match.holds_of_ne_nil hp).mpr ⟨all, found, hl, ?_, rfl⟩
    rw [Path.lastSlices_slice, List.foldlM_append, hc]
    simp [bind, Except.bind, hf, pure, Except.pure]
  case child =>
    intro t c hc
    have ⟨hi, hf⟩ := Slice.cut_eq_ok hf
    cases t with
    | key k => cases hc
    | index i =>
      have hc : found[i]? = some c := hc
      rw [hf, View.getElem?_pick hi] at hc
      have ⟨j, hj, hc⟩ := Option.bind_eq_some_iff.mp hc
      have hu := h.child (.index j) c (by simpa [hv, Json.child?] using hc)
      simpa [step, index, hj] using hu

theorem Sound.leads (h : u.Sound v p) (ha : s.isAddressable = true) (hl : s.Leads last u (.inr ws)) :
    ∀ w ∈ ws, w.Sound v (p ++ [s]) := by
  cases hl with
  | part sl items w segment value part =>
    intro w' hw
    rw [List.mem_singleton.mp hw, segment]
    exact h.part value part
  | nowhere sl segment => simp
  | children slice addressable =>
    intro w hw
    have ⟨t, _, ht⟩ := List.mem_filterMap.mp hw
    exact h.child? slice ht
  | computed x addressable => simp [addressable] at ha

end Spot

namespace Path

variable {o : Options} {v : Json} {p q : Path} {s : Segment} {depth : Nat} {u w : Spot} {m : Match}

-- Where an addressable path goes on, it tells the truth.
theorem sound_of_walk (ha : ∀ s ∈ q, s.isAddressable = true) (h : u.Sound v p)
    (hw : w ∈ (walk o q depth u).found) : w.Sound v (p ++ q) := by
  induction q generalizing p depth u with
  | nil =>
    simp only [walk] at hw
    split at hw
    case isTrue => cases hw
    case isFalse =>
      rw [List.append_nil, List.mem_singleton.mp hw]
      exact h
  | cons s rest ih =>
    have ⟨ha, har⟩ := List.forall_mem_cons.mp ha
    simp only [walk] at hw
    split at hw
    case isTrue => cases hw
    case isFalse =>
      split at hw
      case _ => cases hw
      case _ => cases hw
      case _ ws hv =>
        have ⟨x, hx, hw⟩ := Run.mem_found_inTurn hw
        have hs := ih har (h.leads ha (Segment.leads hv) x hx) hw
        rwa [List.append_assoc] at hs

-- The last segment is read at every value that the others go on with.
theorem evaluate_snoc (o : Options) (q : Path) (s : Segment) (depth : Nat) (u : Spot) :
    evaluate o (q ++ [s]) depth u =
      (walk o q depth u).bind (evaluate o [s] (deeper^[q.length] depth)) := by
  induction q generalizing depth u with
  | nil =>
    simp only [walk]
    split
    case isTrue hd => simp [evaluate, hd]; rfl
    case isFalse => exact (Run.one_bind u).symm
  | cons t rest ih =>
    have hl : (rest ++ [s]).isEmpty = false := by simp
    rw [List.cons_append, walk, evaluate, hl, List.length_cons, Function.iterate_succ_apply]
    split
    case isTrue => rfl
    case isFalse =>
      cases hv : t.visit o false depth u with
      | error e => rfl
      | ok y =>
        cases y with
        | inl m  => exact absurd hv (Segment.visit_ne_inl (.inl rfl))
        | inr ws =>
          dsimp only
          rw [Run.bind_inTurn]
          exact Run.inTurn_congr fun w _ => ih (deeper depth) w

-- Every value that a path goes on with is a result where nothing follows, so these fail together.
theorem mem_evaluate_of_walk (o : Options) (q : Path) (depth : Nat) (u : Spot) :
    (walk o q depth u).error? = (evaluate o q depth u).error? ∧
      ∀ w ∈ (walk o q depth u).found, w.toMatch ∈ (evaluate o q depth u).found := by
  induction q generalizing depth u with
  | nil =>
    simp only [walk, evaluate]
    split <;> simp [Run.fail, Run.one]
  | cons s rest ih =>
    simp only [walk, evaluate]
    split
    case isTrue => simp [Run.fail]
    case isFalse =>
      cases Segment.visit_last_or rest.isEmpty
      case inl hs =>
        rw [hs]
        cases hv : s.visit o false depth u with
        | error e => simp [Run.fail]
        | ok y =>
          cases y with
          | inl m  => exact absurd hv (Segment.visit_ne_inl (.inl rfl))
          | inr ws => exact Run.inTurn_sub fun w _ => ih (deeper depth) w
      case inr hs =>
        obtain ⟨m, hl, hn⟩ := hs
        rw [hl, hn]
        simp [Run.one, Run.inTurn, Run.nothing]

-- A result of the last segment: a value that it leads to, or null where an optional index misses.
theorem holds_of_evaluate (ha : ∀ s ∈ p, s.isAddressable = true)
    (hm : m ∈ (evaluate o p 0 (.root v)).found) :
    m.Holds v p ∨ ∃ (q : Path) (i : Int) (w : Spot), p = q ++ [.index i true] ∧
      w ∈ (walk o q 0 (.root v)).found ∧
      (∀ items, w.value = .arr items → resolveIndex i items.length = none) ∧
      m = ⟨w.location, .null⟩ := by
  cases List.eq_nil_or_concat' p
  case inl hp =>
    subst hp
    simp only [evaluate, Nat.not_lt_zero, if_false] at hm
    rw [List.mem_singleton.mp hm]
    exact .inl (Spot.sound_root v).holds
  case inr hp =>
    obtain ⟨q, s, rfl⟩ := hp
    obtain ⟨haq, has⟩ := List.forall_mem_append.mp ha
    have has := has s (List.mem_singleton.mpr rfl)
    rw [evaluate_snoc] at hm
    obtain ⟨w, hw, hm⟩ := Run.mem_found_bind hm
    have hs := sound_of_walk haq (Spot.sound_root v) hw
    simp only [evaluate] at hm
    split at hm
    case isTrue => cases hm
    case isFalse =>
      split at hm
      case _ => cases hm
      case _ m' hv =>
        cases Segment.leads hv with
        | miss i segment _ missing =>
          rw [List.mem_singleton.mp hm, segment]
          exact .inr ⟨q, i, w, rfl, hw, missing, rfl⟩
      case _ ws hv =>
        obtain ⟨x, hx, hm⟩ := Run.mem_found_inTurn hm
        split at hm
        case isTrue => cases hm
        case isFalse =>
          rw [List.mem_singleton.mp hm]
          exact .inl (hs.leads has (Segment.leads hv) x hx).holds

-- Addressable segments do not ask whether one result is enough.
theorem evaluate_unlimited (ha : ∀ s ∈ p, s.isAddressable = true) (depth : Nat) (u : Spot) :
    evaluate o p depth u = evaluate { o with onlyFirst := false } p depth u := by
  induction p generalizing depth u with
  | nil => rfl
  | cons s rest ih =>
    have ⟨ha, har⟩ := List.forall_mem_cons.mp ha
    have hv : s.visit o rest.isEmpty depth u =
        s.visit { o with onlyFirst := false } rest.isEmpty depth u := by
      cases s <;> first | rfl | cases ha
    have hr : evaluate o rest (deeper depth) =
        evaluate { o with onlyFirst := false } rest (deeper depth) :=
      funext fun w => ih har (deeper depth) w
    simp only [evaluate, hv, hr]

variable {n : Nat}

theorem mem_evaluate_of_answer (h : (p.cursor o v).answer n = some (.ok m)) :
    m ∈ (evaluate o p 0 (.root v)).found := by
  rw [Cursor.answer_eq] at h
  have hr : .ok m ∈ (p.cursor o v).run.results := by
    have hm := List.mem_of_getElem? h
    unfold Cursor.results at hm
    split at hm
    case isTrue  => exact List.mem_of_mem_take hm
    case isFalse => exact hm
  rw [run_cursor] at hr
  exact Run.mem_found_of_results hr

theorem answer_of_mem_evaluate (ho : o.onlyFirst = false)
    (h : m ∈ (evaluate o p 0 (.root v)).found) :
    ∃ n, (p.cursor o v).answer n = some (.ok m) := by
  have hr := Run.mem_results_of_found h
  have ⟨n, hn⟩ := List.getElem?_of_mem hr
  exact ⟨n, (answer_eq_results ho n).trans hn⟩

-- Matches tell the truth. The value of a match is the one at its location, or if the path ends in
-- slices what they select of the array there. Only an optional index at the end that misses is told
-- as null, at the location of the value that it was tried on.
theorem holds_of_answer (ha : ∀ s ∈ p, s.isAddressable = true)
    (h : (p.cursor o v).answer n = some (.ok m)) :
    m.Holds v p ∨ ∃ (q : Path) (i : Int) (w : Match), p = q ++ [.index i true] ∧ w.Holds v q ∧
      (∃ k, (q.cursor { o with onlyFirst := false } v).answer k = some (.ok w)) ∧
      (∀ items, w.value = .arr items → resolveIndex i items.length = none) ∧
      m = ⟨w.location, .null⟩ := by
  have hm := mem_evaluate_of_answer h
  cases holds_of_evaluate ha hm
  case inl hh => exact .inl hh
  case inr hh =>
    have ⟨q, i, w, hp, hw, hi, e⟩ := hh
    have haq : ∀ s ∈ q, s.isAddressable = true := fun s hs => ha s (hp ▸ List.mem_append_left _ hs)
    have hs := sound_of_walk haq (Spot.sound_root v) hw
    have he := (mem_evaluate_of_walk o q 0 (.root v)).2 w hw
    rw [evaluate_unlimited haq] at he
    exact .inr ⟨q, i, w.toMatch, hp, hs.holds, answer_of_mem_evaluate rfl he, hi, e⟩

-- The second slice selects from what the first one selected.
theorem holds_of_answer_slices :
    let v : Json := .obj [("a", .arr [.int 0, .int 1, .int 2, .int 3, .int 4])]
    let p : Path :=
      [.key "a" false, .slice ⟨some 1, some (-1), none⟩, .slice ⟨none, none, some (-2)⟩]
    (⟨[.key "a"], .arr [.int 3, .int 1]⟩ : Match).Holds v p := by
  intro v p
  have h : (p.cursor .default v).answer 0 = some (.ok ⟨[.key "a"], .arr [.int 3, .int 1]⟩) :=
    (answer_eq_results rfl 0).trans rfl
  cases holds_of_answer (by simp [p, Segment.isAddressable]) h
  case inl hh => exact hh
  case inr hh =>
    obtain ⟨q, i, w, hp, _⟩ := hh
    have hl : p.getLast? = some (.index i true) := by rw [hp, List.getLast?_concat]
    simp [p] at hl

end Path

end JsonQuery
