import JsonQuery.Proofs.Run
import JsonQuery.Proofs.Views
import JsonQuery.Read.Evaluate

namespace JsonQuery

-- The elements that a slice selects, in its order. It may come to an index that no element has.
def Slice.cut (s : Slice) (items : List Json) : Except Error (List Json) :=
  (s.indices items.length).mapM fun i =>
    match items[i]? with
    | some x => .ok x
    | none   => .error (.outOfBounds i items.length)

-- A slice comes to its first index that no element has, or it picks all of its elements.
theorem Slice.cut_eq (s : Slice) (items : List Json) : s.cut items =
    match (s.indices items.length).find? (items.length ≤ ·) with
    | some i => .error (.outOfBounds i items.length)
    | none   => .ok ((s.indices items.length).filterMap (items[·]?)) := by
  unfold cut
  generalize s.indices items.length = is
  induction is with
  | nil => rfl
  | cons i rest ih =>
    rw [List.mapM_cons, ih]
    cases h : items[i]? with
    | none =>
      have hi : items.length ≤ i := List.getElem?_eq_none_iff.mp h
      simp [hi]
      rfl
    | some x =>
      have hi : ¬ items.length ≤ i := by simpa using (List.getElem?_eq_some_iff.mp h).1
      rw [List.find?_cons_of_neg (by simpa using hi), List.filterMap_cons_some h]
      cases rest.find? (items.length ≤ ·) <;> rfl

theorem Slice.cut_eq_ok {s : Slice} {items found : List Json} (h : s.cut items = .ok found) :
    (∀ i ∈ s.indices items.length, i < items.length) ∧
      found = (s.indices items.length).filterMap (items[·]?) := by
  rw [cut_eq] at h
  split at h
  case _ => cases h
  case _ hf => exact ⟨by simpa using hf, (Except.ok.inj h).symm⟩

-- A value that an evaluation has come to, and the location that it tells for it. The elements of a
-- slice are told with their indices in the array at that location.
structure Spot where
  location : Location
  value    : Json
  indices  : Option (List Nat)

namespace Spot

def root (v : Json) : Spot := ⟨[], v, none⟩

def toMatch (u : Spot) : Match := ⟨u.location, u.value⟩

-- The same location with another value.
def put (u : Spot) (x : Json) : Spot := ⟨u.location, x, none⟩

def index (u : Spot) (i : Nat) : Nat :=
  match u.indices with
  | some is => is[i]?.getD i
  | none    => i

-- The step in the document for a step into the value.
def step (u : Spot) : Step → Step
  | .key k   => .key k
  | .index i => .index (u.index i)

def child? (u : Spot) (t : Step) : Option Spot :=
  (u.value.child? t).map fun c => ⟨u.location ++ [u.step t], c, none⟩

def children (u : Spot) (ts : List Step) : List Spot := ts.filterMap u.child?

-- A part of the array that is the value.
def part (u : Spot) (s : Slice) (items : List Json) : Except Error Spot :=
  (s.cut items).map fun found =>
    ⟨u.location, .arr found, some ((s.indices items.length).map u.index)⟩

end Spot

-- A segment that leads nowhere ends its branch without a result. Where it has to lead somewhere,
-- that is an error.
def Options.stuck (o : Options) (optional : Bool) (e : Error) : Except Error (Match ⊕ List Spot) :=
  if o.strict && !optional then .error e else .ok (.inr [])

mutual

-- What a segment leads to: a result at once, or the values that the rest of the path goes on with.
def Segment.visit (o : Options) : Segment → (last : Bool) → (depth : Nat) → Spot →
    Except Error (Match ⊕ List Spot)
  | .key name q, _, _, u =>
    match u.value with
    | .obj ms =>
      if Members.contains ms name then .ok (.inr (u.children [.key name]))
      else o.stuck q (.missingKey (u.location ++ [.key name]))
    | _ => o.stuck q (.mismatch u.location .object u.value.kind)
  | .index i q, last, _, u =>
    match u.value with
    | .arr items =>
      match resolveIndex i items.length with
      | some n => .ok (.inr (u.children [.index n]))
      | none =>
        if q && last then .ok (.inl ⟨u.location, .null⟩)
        else o.stuck q (.missingIndex u.location i)
    | _ =>
      if q && last then .ok (.inl ⟨u.location, .null⟩)
      else o.stuck q (.mismatch u.location .array u.value.kind)
  | .children q, _, _, u =>
    match u.value with
    | .obj _ | .arr _ => .ok (.inr (u.children u.value.steps))
    | _ => o.stuck q (.mismatch u.location .either u.value.kind)
  | .elements q, _, _, u =>
    match u.value with
    | .arr _ => .ok (.inr (u.children u.value.steps))
    | _ => o.stuck q (.mismatch u.location .either u.value.kind)
  | .slice s, _, _, u =>
    match u.value with
    | .arr items => (u.part s items).map fun w => .inr [w]
    | _ => o.stuck false (.mismatch u.location .array u.value.kind)
  | .selector p _, _, _, u =>
    match u.value with
    | .obj _ | .arr _ => .ok (.inr (u.children (p.select u.value)))
    | _ => o.stuck false (.mismatch u.location .either u.value.kind)
  | .call f _, _, depth, u => (f.evaluate o depth u.value).map fun x => .inr [u.put x]
  | .literal x, _, _, u => .ok (.inr [u.put x])
  | .construct fields, _, depth, u =>
    (Path.evaluateFields o fields (deeper depth) u.value).map fun ms =>
      .inr [u.put (.obj (Members.ofList ms))]

-- The depth-first evaluation of a path. Every value that a segment leads to is evaluated with the
-- rest of the path before the next one is.
def Path.evaluate (o : Options) : List Segment → (depth : Nat) → Spot → Run Match
  | [], depth, u =>
    if o.maxDepth < depth then .fail (.tooDeep o.maxDepth) else .one u.toMatch
  | s :: rest, depth, u =>
    if o.maxDepth < depth then .fail (.tooDeep o.maxDepth)
    else
      match s.visit o rest.isEmpty depth u with
      | .error e     => .fail e
      | .ok (.inl m) => .one m
      | .ok (.inr ws) => .inTurn (Path.evaluate o rest (deeper depth)) ws

def Path.evaluateFields (o : Options) : List (String × List Segment) → (depth : Nat) → Json →
    Except Error (List (String × Json))
  | [], _, _ => .ok []
  | (name, p) :: rest, depth, v => do
    let found ← (Path.evaluate o p depth (.root v)).all
    let others ← Path.evaluateFields o rest depth v
    return (name, fieldValue found) :: others

-- Mapping a path is the only function that evaluates one.
def Builtin.evaluate (o : Options) : Builtin → (depth : Nat) → Json → Except Error Json
  | .map m, depth, v => m.evaluate o depth v
  | f,      depth, v => f.apply o depth v

def Mapping.evaluate (o : Options) : Mapping → (depth : Nat) → Json → Except Error Json
  | .path p, depth, .arr items =>
    (items.mapM fun x =>
      (Path.evaluate o p (deeper depth) (.root x)).first?.map fun m =>
        m.elim .null (·.value)).map .arr
  | .arithmetic op operand, _, .arr items =>
    .ok (.arr (items.map (Json.arithmetic op.compute operand)))
  | _, _, _ => .ok .null

end

namespace Segment

variable {o : Options} {s : Segment} {last : Bool} {depth : Nat} {u : Spot} {y : Match ⊕ List Spot}

-- What a segment that does not fail leads to.
inductive Leads (s : Segment) (last : Bool) (u : Spot) : Match ⊕ List Spot → Prop
  -- An optional index at the end that no element has.
  | miss (i : Int) (segment : s = .index i true) (terminal : last = true)
      (missing : ∀ items, u.value = .arr items → resolveIndex i items.length = none) :
      Leads s last u (.inl ⟨u.location, .null⟩)
  | part (sl : Slice) (items : List Json) (w : Spot) (segment : s = .slice sl)
      (value : u.value = .arr items) (part : u.part sl items = .ok w) : Leads s last u (.inr [w])
  | nowhere (sl : Slice) (segment : s = .slice sl) : Leads s last u (.inr [])
  | children (slice : s.isSlice = false) (addressable : s.isAddressable = true) :
      Leads s last u (.inr (u.children (s.steps u.value)))
  | computed (x : Json) (addressable : s.isAddressable = false) : Leads s last u (.inr [u.put x])

theorem stuck_eq_ok {q : Bool} {e : Error} (h : o.stuck q e = .ok y) : y = .inr [] := by
  unfold Options.stuck at h
  split at h <;> simp_all

variable (hn : s.isSlice = false) (ha : s.isAddressable = true)

include hn ha in
theorem Leads.of_steps {ts : List Step} (ht : s.steps u.value = ts) :
    s.Leads last u (.inr (u.children ts)) :=
  ht ▸ .children hn ha

include hn ha in
theorem Leads.of_stuck {q : Bool} {e : Error} (ht : s.steps u.value = [])
    (h : o.stuck q e = .ok y) : s.Leads last u y :=
  stuck_eq_ok h ▸ Leads.of_steps hn ha ht

theorem leads (h : s.visit o last depth u = .ok y) : s.Leads last u y := by
  cases s <;> simp only [visit] at h
  case key name q =>
    cases hv : u.value <;> simp only [hv] at h
    case obj ms =>
      split at h
      case isTrue hc  => exact Except.ok.inj h ▸ .of_steps rfl rfl (by simp [steps, hv, hc])
      case isFalse hc => exact .of_stuck rfl rfl (by simp [steps, hv, hc]) h
    all_goals exact .of_stuck rfl rfl (by simp [steps, hv]) h
  case index i q =>
    have hm (hi : ∀ items, u.value = .arr items → resolveIndex i items.length = none)
        (hs : (index i q).steps u.value = []) {e : Error}
        (h : (if q && last then .ok (.inl ⟨u.location, .null⟩) else o.stuck q e) = .ok y) :
        (index i q).Leads last u y := by
      split at h
      case isTrue hq =>
        obtain ⟨hq, hl⟩ := Bool.and_eq_true_iff.mp hq
        exact Except.ok.inj h ▸ .miss i (by rw [hq]) hl hi
      case isFalse => exact .of_stuck rfl rfl hs h
    cases hv : u.value <;> simp only [hv] at h
    case arr items =>
      cases hr : resolveIndex i items.length <;> simp only [hr] at h
      case none   => exact hm (by simp [hv, hr]) (by simp [steps, hv, hr]) h
      case some n => exact Except.ok.inj h ▸ .of_steps rfl rfl (by simp [steps, hv, hr])
    all_goals exact hm (by simp [hv]) (by simp [steps, hv]) h
  case children q =>
    cases hv : u.value <;> simp only [hv] at h
    case arr | obj => exact Except.ok.inj h ▸ .of_steps rfl rfl (by simp [steps, hv])
    all_goals exact .of_stuck rfl rfl (by simp [steps, hv, Json.steps]) h
  case elements q =>
    cases hv : u.value <;> simp only [hv] at h
    case arr items => exact Except.ok.inj h ▸ .of_steps rfl rfl (by simp [steps, hv])
    all_goals exact .of_stuck rfl rfl (by simp [steps, hv]) h
  case slice sl =>
    cases hv : u.value <;> simp only [hv] at h
    case arr items =>
      obtain ⟨w, hw, e⟩ := map_eq_ok_iff.mp h
      exact e ▸ .part sl items w rfl hv hw
    all_goals exact stuck_eq_ok h ▸ .nowhere sl rfl
  case selector p text =>
    cases hv : u.value <;> simp only [hv] at h
    case arr | obj => exact Except.ok.inj h ▸ .of_steps rfl rfl (by simp [steps, hv])
    all_goals exact .of_stuck rfl rfl (by simp [steps, hv, Predicate.select]) h
  case call f text =>
    obtain ⟨x, hx⟩ := map_eq_ok_iff.mp h
    exact hx.2 ▸ .computed x rfl
  case literal x => exact Except.ok.inj h ▸ .computed x rfl
  case construct fields =>
    obtain ⟨ms, hms⟩ := map_eq_ok_iff.mp h
    exact hms.2 ▸ .computed _ rfl

end Segment

end JsonQuery
