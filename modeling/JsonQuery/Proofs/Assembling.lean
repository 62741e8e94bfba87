import Mathlib.Data.List.Nodup
import JsonQuery.Flat.Unflatten
import JsonQuery.Proofs.Preorder

namespace JsonQuery.Flat

variable {segment above : List Char} {i n limit : Nat} {is : List Nat} {x v : Json}
  {children : List (List Char × Json)} {elements : List (Nat × Json)}

theorem toDigits_inj {i j : Nat} (h : Nat.toDigits 10 i = Nat.toDigits 10 j) : i = j := by
  have h := congrArg natural? h
  simpa [natural?_toDigits] using h

theorem dropPlus_toDigits (i : Nat) : dropPlus (Nat.toDigits 10 i) = Nat.toDigits 10 i := by
  cases h : Nat.toDigits 10 i with
  | nil => rfl
  | cons c rest =>
    have hc : c.isDigit = true :=
      Nat.isDigit_of_mem_toDigits (b := 10) (n := i) (by decide) (by decide) (by simp [h])
    unfold dropPlus
    split
    case _ e =>
      cases e
      cases hc
    case _ => rfl

-- The canonical numeral of a 64 bit number names an index, and no other segment does.
theorem arrayIndex?_eq_some_iff :
    arrayIndex? segment = some i ↔ segment = Nat.toDigits 10 i ∧ i < 0x10000000000000000 := by
  simp only [arrayIndex?, Option.filter_eq_some_iff, beq_iff_eq, unsigned64?, decide_eq_true_eq]
  constructor
  case mp =>
    rintro ⟨⟨_, hi⟩, e⟩
    exact ⟨e.symm, hi⟩
  case mpr =>
    rintro ⟨e, hi⟩
    subst e
    exact ⟨⟨by rw [dropPlus_toDigits, natural?_toDigits], hi⟩, rfl⟩

theorem mapM_arrayIndex?_eq_some_iff : (children.mapM fun c => arrayIndex? c.1) = some is ↔
    children.map (·.1) = is.map (Nat.toDigits 10) ∧ ∀ i ∈ is, i < 0x10000000000000000 := by
  induction children generalizing is with
  | nil =>
    rw [List.mapM_nil]
    cases is <;> simp
  | cons c children ih =>
    rw [List.mapM_cons]
    simp only [Option.bind_eq_bind, Option.bind_eq_some_iff, arrayIndex?_eq_some_iff, ih]
    constructor
    case mp =>
      rintro ⟨i, ⟨hc, hi⟩, js, ⟨hr, hj⟩, e⟩
      cases e
      exact ⟨by simp [hc, hr], List.forall_mem_cons.mpr ⟨hi, hj⟩⟩
    case mpr =>
      rintro ⟨e, hi⟩
      cases is with
      | nil       => simp at e
      | cons i js =>
        obtain ⟨hc, hr⟩ := List.cons.inj e
        obtain ⟨hi, hj⟩ := List.forall_mem_cons.mp hi
        exact ⟨i, ⟨hc, hi⟩, js, ⟨hr, hj⟩, rfl⟩

section

variable {items : List Json}

theorem length_foldl_set (items : List Json) (elements : List (Nat × Json)) :
    (elements.foldl (fun items e => items.set e.1 e.2) items).length = items.length := by
  induction elements generalizing items with
  | nil => rfl
  | cons e elements ih => simp [ih]

theorem getElem?_foldl_set_of_not_mem (h : i ∉ elements.map (·.1)) :
    (elements.foldl (fun items e => items.set e.1 e.2) items)[i]? = items[i]? := by
  induction elements generalizing items with
  | nil => rfl
  | cons e elements ih =>
    obtain ⟨hi, hr⟩ : i ≠ e.1 ∧ i ∉ elements.map (·.1) := by simpa using h
    rw [List.foldl_cons, ih hr, List.getElem?_set_ne (Ne.symm hi)]

theorem getElem?_foldl_set_of_mem (hn : (elements.map (·.1)).Nodup) (h : (i, x) ∈ elements)
    (hi : i < items.length) :
    (elements.foldl (fun items e => items.set e.1 e.2) items)[i]? = some x := by
  induction elements generalizing items with
  | nil => simp at h
  | cons e elements ih =>
    rw [List.map_cons, List.nodup_cons] at hn
    rw [List.foldl_cons]
    cases List.mem_cons.mp h
    case inl h =>
      subst h
      rw [getElem?_foldl_set_of_not_mem hn.1, List.getElem?_set_self hi]
    case inr h => exact ih hn.2 h (by simpa using hi)

end

-- An array has its elements at their indices and null elsewhere.
theorem length_fill : (fill n elements).length = n :=
  (length_foldl_set _ _).trans List.length_replicate

theorem getElem?_fill_of_mem (hn : (elements.map (·.1)).Nodup) (h : (i, x) ∈ elements)
    (hi : i < n) : (fill n elements)[i]? = some x :=
  getElem?_foldl_set_of_mem hn h (by simpa using hi)

theorem getElem?_fill_of_not_mem (h : i ∉ elements.map (·.1)) (hi : i < n) :
    (fill n elements)[i]? = some .null :=
  (getElem?_foldl_set_of_not_mem h).trans (by simp [hi])

-- The largest index is one of them.
theorem foldl_max_eq_iff : is.foldl max i = n ↔ n ∈ i :: is ∧ ∀ j ∈ i :: is, j ≤ n := by
  rw [← Option.some_inj, ← List.max?_cons', List.max?_eq_some_iff]

theorem le_foldl_max : ∀ j ∈ i :: is, j ≤ is.foldl max i :=
  (foldl_max_eq_iff.mp rfl).2

-- Children with indices for segments go into an array, and all others into an object.
theorem assemble_cases (limit : Nat) (above : List Char) (children : List (List Char × Json)) :
    (∃ first others, children.map (·.1) = (first :: others).map (Nat.toDigits 10) ∧
      (∀ i ∈ first :: others, i < 0x10000000000000000) ∧
      assemble limit above children =
        assembleArray limit above first others (children.map (·.2))) ∨
    ((∀ c ∈ children, (arrayIndex? c.1).isSome) → children = []) ∧
      assemble limit above children =
        .ok (.obj (children.map fun c => (String.ofList c.1, c.2))) := by
  unfold assemble
  split
  case _ first others hm =>
    obtain ⟨hseg, hlt⟩ := mapM_arrayIndex?_eq_some_iff.mp hm
    exact .inl ⟨first, others, hseg, hlt, rfl⟩
  case _ hm =>
    refine .inr ⟨fun hall => ?_, rfl⟩
    have index {c} (hc : c ∈ children) :
        arrayIndex? c.1 = some ((arrayIndex? c.1).getD 0) := by
      obtain ⟨i, hi⟩ := Option.isSome_iff_exists.mp (hall c hc)
      rw [hi, Option.getD_some]
    have hsome : (children.mapM fun c => arrayIndex? c.1) =
        some (children.map fun c => (arrayIndex? c.1).getD 0) := by
      refine mapM_arrayIndex?_eq_some_iff.mpr ⟨?_, List.forall_mem_map.mpr fun c hc => ?_⟩
      · rw [List.map_map]
        exact List.map_congr_left fun c hc => (arrayIndex?_eq_some_iff.mp (index hc)).1
      · exact (arrayIndex?_eq_some_iff.mp (index hc)).2
    cases children with
    | nil         => rfl
    | cons c rest => exact absurd hsome (hm _ _)

-- An array is put together if it takes no more nulls than allowed and is no longer than arrays are.
theorem assembleArray_eq_ok_iff {values : List Json} : assembleArray limit above i is values = .ok v ↔
    is.foldl max i - is.length ≤ limit ∧ is.foldl max i + 1 < 0x8000000000000000 ∧
      v = .arr (fill (is.foldl max i + 1) ((i :: is).zip values)) := by
  simp only [assembleArray]
  by_cases hm : limit < is.foldl max i - is.length
  case pos => simp [hm, Nat.not_le.mpr hm]
  case neg =>
    by_cases hl : 0x8000000000000000 ≤ is.foldl max i + 1
    case pos => simp [hm, hl, Nat.not_lt.mpr hl]
    case neg => simp [hm, hl, Nat.le_of_not_lt hm, Nat.lt_of_not_le hl, eq_comm]

-- Children become the elements of an array if all of their segments name indices, and the members
-- of an object otherwise.
theorem assemble_eq_ok (h : assemble limit above children = .ok v) :
    (∃ elements n, v = .arr (fill n elements) ∧ (∀ e ∈ elements, e.1 < n) ∧
      children = elements.map fun e => (Nat.toDigits 10 e.1, e.2)) ∨
    v = .obj (children.map fun c => (String.ofList c.1, c.2)) := by
  simp only [assemble] at h
  split at h
  case _ i rest hm =>
    refine .inl ⟨(i :: rest).zip (children.map (·.2)), rest.foldl max i + 1, ?_⟩
    obtain ⟨hseg, _⟩ := mapM_arrayIndex?_eq_some_iff.mp hm
    obtain ⟨_, _, hv⟩ := assembleArray_eq_ok_iff.mp h
    have hlen : (i :: rest).length = (children.map (·.2)).length := by
      simpa using (congrArg List.length hseg).symm
    have hfst := List.map_fst_zip (Nat.le_of_eq hlen)
    refine ⟨hv, fun e he => Nat.lt_succ_of_le (le_foldl_max e.1 ?_), ?_⟩
    · exact hfst ▸ List.mem_map_of_mem he
    · have e : ((i :: rest).map (Nat.toDigits 10)).zip (children.map (·.2)) =
          ((i :: rest).zip (children.map (·.2))).map (Prod.map (Nat.toDigits 10) id) :=
        List.zip_map_left
      rw [← hseg, List.zip_map'] at e
      exact (List.map_id' children).symm.trans e
  case _ => exact .inr (Except.ok.inj h).symm

-- What a container of these children is like: every child is where its segment leads, and what else
-- is there are null elements of an array.
structure Assembled (children : List (List Char × Json)) (v : Json) : Prop where
  steps : v.steps.Nodup
  child : ∀ c ∈ children, ∃ s, v.child? s = some c.2 ∧ s.text.toList = c.1
  other : ∀ s x, v.child? s = some x → (s.text.toList, x) ∈ children ∨
    s.text.toList ∉ children.map (·.1) ∧ x = .null ∧ ∃ i, s = .index i

theorem assembled_fill (hn : (elements.map (·.1)).Nodup) (hi : ∀ e ∈ elements, e.1 < n) :
    Assembled (elements.map fun e => (Nat.toDigits 10 e.1, e.2)) (.arr (fill n elements)) where
  steps := by
    rw [Json.steps, List.nodup_map_iff fun _ _ => Step.index.inj]
    exact List.nodup_range
  child := by
    simp only [List.forall_mem_map]
    intro e he
    exact ⟨.index e.1, getElem?_fill_of_mem hn he (hi e he), Nat.toList_repr⟩
  other := by
    intro s x hx
    cases s with
    | key k   => cases hx
    | index i =>
      obtain ⟨hlt, _⟩ := List.getElem?_eq_some_iff.mp hx
      rw [length_fill] at hlt
      by_cases hm : i ∈ elements.map (·.1)
      case pos =>
        obtain ⟨e, he, rfl⟩ := List.mem_map.mp hm
        cases (getElem?_fill_of_mem hn he hlt).symm.trans hx
        exact .inl (List.mem_map.mpr ⟨e, he, by simp [Step.text]⟩)
      case neg =>
        cases (getElem?_fill_of_not_mem hm hlt).symm.trans hx
        refine .inr ⟨fun h => hm ?_, rfl, i, rfl⟩
        simp only [List.map_map, List.mem_map, Function.comp_apply, Step.text, Nat.toList_repr] at h
        obtain ⟨e, he, ht⟩ := h
        exact List.mem_map.mpr ⟨e, he, toDigits_inj ht⟩

theorem assembled_obj (hn : (children.map (·.1)).Nodup) :
    Assembled children (.obj (children.map fun c => (String.ofList c.1, c.2))) := by
  have hk : (Members.keys (children.map fun c => (String.ofList c.1, c.2))).Nodup := by
    refine List.Nodup.of_map String.toList ?_
    simpa [Members.keys, Function.comp_def] using hn
  refine ⟨?_, fun c hc => ?_, fun s x hx => ?_⟩
  · exact (List.nodup_map_iff fun _ _ => Step.key.inj).mpr hk
  · refine ⟨.key (String.ofList c.1), Members.get?_of_mem hk ?_, String.toList_ofList⟩
    exact List.mem_map_of_mem hc
  · cases s with
    | index i => cases hx
    | key k   =>
      obtain ⟨c, hc, e⟩ := List.mem_map.mp (Members.mem_of_get? hx)
      cases e
      exact .inl (by simpa [Step.text] using hc)

theorem assembled_of_assemble (hn : (children.map (·.1)).Nodup)
    (h : assemble limit above children = .ok v) : Assembled children v := by
  rcases assemble_eq_ok h with ⟨elements, n, rfl, hi, rfl⟩ | rfl
  case inl =>
    have hn : ((elements.map (·.1)).map (Nat.toDigits 10)).Nodup := by
      simpa [Function.comp_def] using hn
    exact assembled_fill (hn.of_map _) hi
  case inr => exact assembled_obj hn

theorem fill_range (items : List Json) :
    fill items.length ((List.range items.length).zip items) = items := by
  have hfst : ((List.range items.length).zip items).map (·.1) = List.range items.length :=
    List.map_fst_zip (by simp)
  have hn : (((List.range items.length).zip items).map (·.1)).Nodup := by
    rw [hfst]
    exact List.nodup_range
  refine List.ext_getElem length_fill fun i _ hi => ?_
  refine (List.getElem_eq_iff _).mpr (getElem?_fill_of_mem hn ?_ hi)
  exact List.mem_iff_getElem.mpr ⟨i, by simpa using hi, by simp⟩

theorem texts_of_items (items : List Json) :
    ((Json.arr items).children.map fun m => m.1.text.toList) =
      (List.range items.length).map (Nat.toDigits 10) :=
  List.ext_getElem (by simp [Json.children]) fun i _ _ => by simp [Json.children, Step.text]

theorem values_of_items (items : List Json) : (Json.arr items).children.map (·.2) = items :=
  List.ext_getElem (by simp [Json.children]) fun i _ _ => by simp [Json.children]

theorem foldl_max_range (h : List.range n = i :: is) : is.foldl max i = is.length := by
  have hn : n = is.length + 1 := by simpa using congrArg List.length h
  refine foldl_max_eq_iff.mpr ⟨?_, fun j hj => ?_⟩
  · rw [← h, List.mem_range]
    omega
  · rw [← h, List.mem_range] at hj
    omega

-- The children of an array are put together to the same array, and no elements are missing.
theorem assemble_items {items : List Json} (hn : items ≠ []) (hw : (Json.arr items).WellFormed) :
    assemble limit above ((Json.arr items).children.map fun m => (m.1.text.toList, m.2)) =
      .ok (.arr items) := by
  obtain ⟨i, rest, hrange⟩ : ∃ i rest, List.range items.length = i :: rest :=
    List.exists_cons_of_ne_nil (by simpa using hn)
  have hm : (((Json.arr items).children.map fun m => (m.1.text.toList, m.2)).mapM fun c =>
      arrayIndex? c.1) = some (i :: rest) := by
    rw [mapM_arrayIndex?_eq_some_iff, List.map_map, ← hrange]
    have hlen := hw.length_lt
    refine ⟨texts_of_items items, fun j hj => ?_⟩
    have := List.mem_range.mp hj
    omega
  have hlen : rest.length + 1 = items.length := by simpa using (congrArg List.length hrange).symm
  have hvalues : ((Json.arr items).children.map fun m => (m.1.text.toList, m.2)).map (·.2) = items :=
    List.map_map.trans (values_of_items items)
  simp only [assemble, hm, hvalues]
  refine assembleArray_eq_ok_iff.mpr ?_
  rw [foldl_max_range hrange, hlen, ← hrange, fill_range]
  exact ⟨by omega, hw.length_lt, rfl⟩

-- The members of an object are put together to the same object if one of its keys is no index.
theorem assemble_members {ms : List (String × Json)}
    (hk : ∃ k ∈ Members.keys ms, ∀ i < 0x10000000000000000, k ≠ i.repr) :
    assemble limit above ((Json.obj ms).children.map fun m => (m.1.text.toList, m.2)) =
      .ok (.obj ms) := by
  obtain ⟨k, hk, hi⟩ := hk
  simp only [assemble]
  split
  case _ i rest hm =>
    obtain ⟨hseg, hr⟩ := mapM_arrayIndex?_eq_some_iff.mp hm
    have hmem : k.toList ∈ (i :: rest).map (Nat.toDigits 10) := by
      rw [← hseg]
      simpa [Json.children, Step.text, Members.keys, String.toList_inj] using hk
    obtain ⟨j, hj, e⟩ := List.mem_map.mp hmem
    exact absurd (by rw [← String.toList_inj, ← e, Nat.toList_repr]) (hi j (hr j hj))
  case _ => simp [Json.children, Step.text, Function.comp_def]

end JsonQuery.Flat
