import JsonQuery.Proofs.Concatenation

namespace JsonQuery

-- Reads that end before others of the same path do: those that are strict, and those that stop after
-- their first result.

namespace Path

variable {o : Options} {p : Path} {v : Json}

-- A strict read is told what one that is not strict is told, until it fails at a segment that leads
-- nowhere. If it does not, the two are told the same, errors of other kinds included.
theorem strict_cuts_short (p : Path) (o : Options) (v : Json) :
    let strict := p.cursor { o with strict := true } v
    let lenient := p.cursor { o with strict := false } v
    (∀ n m, strict.answer n = some (.ok m) → lenient.answer n = some (.ok m)) ∧
    ((∀ n e, strict.answer n = some (.error e) → e.isMiss = false) →
      ∀ n, lenient.answer n = strict.answer n) := by
  intro strict lenient
  have h : strict.told.CutShort (·.isMiss = true) lenient.told :=
    told_cutShort (.of_strict o 0) rfl p v
  simp only [Cursor.answer_eq_told]
  constructor
  case left =>
    intro n m hm
    rcases h.results n with he | ⟨k, hk, e, he, _⟩
    case inl => exact he.trans hm
    case inr =>
      cases Nat.eq_or_lt_of_le hk with
      | inl hk => simp [← hk, he] at hm
      | inr hk => simp [Run.results_after (.inr ⟨e, he⟩) hk] at hm
  case right =>
    intro hm n
    rcases h.results n with he | ⟨k, _, e, he, hc⟩
    case inl => exact he
    case inr => simp [hm k e he] at hc

-- The keys that an object lacks end a strict read, unless they are optional.
theorem strict_cuts_short_keys :
    let v : Json := .arr [.obj [("a", .int 1)], .obj [("b", .int 2)], .obj [("a", .int 3)]]
    let p (optional : Bool) : Path := [.elements false, .key "a" optional]
    let strict := { Options.default with strict := true }
    let lenient := { Options.default with strict := false }
    ((p false).cursor lenient v).answer 0 = some (.ok ⟨[.index 0, .key "a"], .int 1⟩) ∧
    ((p false).cursor strict v).answer 1 = some (.error (.missingKey [.index 1, .key "a"])) ∧
    ∀ n, ((p true).cursor lenient v).answer n = ((p true).cursor strict v).answer n := by
  intro v p strict lenient
  have hstrict (q : Bool) (n : Nat) : ((p q).cursor strict v).answer n =
      (evaluate strict (p q) 0 (.root v)).results[n]? := answer_eq_results rfl n
  obtain ⟨hfound, _⟩ := strict_cuts_short (p false) .default v
  obtain ⟨_, hsame⟩ := strict_cuts_short (p true) .default v
  refine ⟨hfound 0 _ ((hstrict false 0).trans rfl), (hstrict false 1).trans rfl, hsame ?_⟩
  intro n e he
  have he := List.mem_of_getElem? ((hstrict true n).symm.trans he)
  have hr : (evaluate strict (p true) 0 (.root v)).results =
    [.ok ⟨[.index 0, .key "a"], .int 1⟩, .ok ⟨[.index 2, .key "a"], .int 3⟩] := rfl
  simp [hr] at he

-- Whether a read stops after its first result does not show in anything that it computes.
theorem run_cursor_onlyFirst (p : Path) (o : Options) (b b' : Bool) (v : Json) :
    (p.cursor { o with onlyFirst := b } v).run = (p.cursor { o with onlyFirst := b' } v).run := by
  rw [run_cursor, run_cursor]
  exact (evaluate_cutShort (.of_onlyFirst o b' b 0) p (.root v)).eq fun _ _ => id

end Path

namespace Query

variable {o : Options} {p : Path} {v : Json} {xs : List Json}

-- What a full read collects is what a read that stops early would come to.
theorem run_of_get (h : (Query.mk p { o with onlyFirst := false }).get v = .ok xs) (b : Bool) :
    ∃ ms, (p.cursor { o with onlyFirst := b } v).run.all = .ok ms ∧ ms.map (·.value) = xs := by
  obtain ⟨ms, hms, e⟩ := map_eq_ok_iff.mp h
  refine ⟨ms, ?_, e⟩
  rw [Path.run_cursor_onlyFirst p o b false]
  exact (Cursor.all_eq_run _ rfl).symm.trans hms

theorem first?_of_get (h : (Query.mk p { o with onlyFirst := false }).get v = .ok xs) :
    (Query.mk p o).first? v = .ok xs.head? := by
  obtain ⟨ms, hr, e⟩ := run_of_get h true
  rw [first?, Cursor.first?_eq_run, Run.first?_of_all hr, ← e, List.head?_map]
  rfl

theorem get_onlyFirst_of_get (h : (Query.mk p { o with onlyFirst := false }).get v = .ok xs) :
    (Query.mk p { o with onlyFirst := true }).get v = .ok xs.head?.toList := by
  obtain ⟨ms, hr, e⟩ := run_of_get h true
  have ht : (p.cursor { o with onlyFirst := true } v).told =
      (p.cursor { o with onlyFirst := true } v).run.once := rfl
  have ha : (p.cursor { o with onlyFirst := true } v).all = .ok ms.head?.toList := by
    rw [Cursor.all_eq_told, ht, Run.all_once, Run.first?_of_all hr]
    rfl
  refine map_eq_ok_iff.mpr ⟨_, ha, ?_⟩
  rw [← e]
  cases ms <;> rfl

-- A read that stops after its first result is told what the read that does not stop is told first,
-- and then nothing more. What functions and constructs compute on the way is the same, and the first
-- result of an element that is mapped is, too. So where the full read succeeds, the other ways to ask
-- for its first result give just that one.
theorem onlyFirst_takes_one (p : Path) (o : Options) (v : Json) :
    let stopping := { o with onlyFirst := true }
    let full := { o with onlyFirst := false }
    ((p.cursor stopping v).answer 0 = (p.cursor full v).answer 0 ∧
      ∀ n, (p.cursor stopping v).answer (n + 1) = none) ∧
    (∀ (f : Builtin) depth x, f.apply stopping depth x = f.apply full depth x) ∧
    (∀ fields depth x,
      Path.fieldValues stopping depth x fields = Path.fieldValues full depth x fields) ∧
    (∀ (q : Path) depth x,
      (Cursor.start o.maxDepth true (Path.stages stopping q) depth x).first? =
        (Cursor.start o.maxDepth false (Path.stages full q) depth x).first?) ∧
    ∀ xs, (Query.mk p full).get v = .ok xs →
      (Query.mk p o).first? v = .ok xs.head? ∧
      (Query.mk p o).has v = .ok !xs.isEmpty ∧
      (∀ default, (Query.mk p o).getD v default = .ok (xs.head?.getD default)) ∧
      (Query.mk p stopping).get v = .ok xs.head?.toList := by
  intro stopping full
  have hs : (p.cursor stopping v).told = (p.cursor full v).run.once :=
    congrArg Run.once (Path.run_cursor_onlyFirst p o true false v)
  have hf : (p.cursor full v).told = (p.cursor full v).run := rfl
  refine ⟨⟨?first, fun n => ?rest⟩, fun f depth x => ?apply, fun fields depth x => ?fields,
    fun q depth x => ?element, fun xs h => ?get⟩
  case first =>
    rw [Cursor.answer_eq_told, Cursor.answer_eq_told, hs, hf, Run.results_once,
      List.getElem?_take_of_lt Nat.one_pos]
  case rest =>
    rw [Cursor.answer_eq_told, hs, Run.results_once]
    exact List.getElem?_take_eq_none (Nat.le_add_left 1 n)
  case apply =>
    exact (Builtin.apply_cutShort (.of_onlyFirst o false true depth) f x).eq fun _ _ => id
  case fields =>
    exact (Path.fieldValues_cutShort (.of_onlyFirst o false true depth) fields x).eq fun _ _ => id
  case element =>
    have he : Path.evaluate stopping q depth (.root x) = Path.evaluate full q depth (.root x) :=
      (Path.evaluate_cutShort (.of_onlyFirst o false true depth) q (.root x)).eq fun _ _ => id
    rw [Path.evaluate_root, Path.evaluate_root] at he
    rw [Cursor.first?_start, Cursor.first?_start]
    exact congrArg (fun r => r.first?.map (·.map (·.value))) he
  case get =>
    have hfirst := first?_of_get h
    refine ⟨hfirst, ?has, fun default => ?getD, get_onlyFirst_of_get h⟩
    case has =>
      rw [has, hfirst]
      cases xs <;> rfl
    case getD =>
      rw [getD, hfirst]
      rfl

theorem onlyFirst_takes_one_fields :
    let v : Json := .obj [("a", .arr [.arr [.int 1, .int 2], .arr [.int 3], .null])]
    let p : Path := [.key "a" false, .elements false,
      .construct [("xs", [.elements false]), ("x", [.call (.map (.path [])) "map(.)"])]]
    let found : Json := .obj [("xs", .arr [.int 1, .int 2]), ("x", .arr [.int 1, .int 2])]
    (Query.mk p .default).first? v = .ok (some found) ∧
    (Query.mk p { Options.default with onlyFirst := true }).get v = .ok [found] := by
  intro v p found
  have h : (Query.mk p .default).get v = .ok [found,
      .obj [("xs", .int 3), ("x", .arr [.int 3])], .obj [("xs", .null), ("x", .null)]] :=
    (get_eq_values rfl p v).trans rfl
  obtain ⟨_, _, _, _, hget⟩ := onlyFirst_takes_one p .default v
  obtain ⟨hfirst, _, _, hstop⟩ := hget _ h
  exact ⟨hfirst, hstop⟩

end Query

end JsonQuery
