import Mathlib.Data.List.Infix
import JsonQuery.Read.Evaluate

namespace JsonQuery

namespace Text

variable {separator part text rest p : List Char} {c : Char} {s t : String}

-- Where the separator occurs in the part followed by the text, it starts behind the part.
def Clear (separator part text : List Char) : Prop :=
  ∀ before after, part ++ text = before ++ separator ++ after → part.length ≤ before.length

theorem clear_nil (separator text : List Char) : Clear separator [] text :=
  fun _ _ _ => Nat.zero_le _

theorem Clear.not_infix (h : Clear separator part text) (hs : separator ≠ []) :
    ¬ separator <:+: part := by
  rintro ⟨before, after, rfl⟩
  have hlen := h before (after ++ text) (by simp)
  have hpos := List.length_pos_iff.mpr hs
  simp only [List.length_append] at hlen
  omega

-- A character at which the separator does not start belongs to the part.
theorem Clear.snoc (h : Clear separator part (c :: text)) (hc : ¬ separator <+: c :: text) :
    Clear separator (part ++ [c]) text := by
  intro before after e
  have e : part ++ c :: text = before ++ (separator ++ after) := by simpa using e
  have hle := h before after (by simpa using e)
  have hne : part.length ≠ before.length := by
    intro hl
    obtain ⟨_, e⟩ := List.append_inj e hl
    exact hc ⟨after, e.symm⟩
  simp only [List.length_append, List.length_singleton]
  omega

theorem append_drop_of_prefix (hs : separator ≠ []) (h : separator <+: c :: rest) :
    separator ++ rest.drop (separator.length - 1) = c :: rest := by
  obtain ⟨d, ds, rfl⟩ := List.exists_cons_of_ne_nil hs
  obtain ⟨text, e⟩ := h
  obtain ⟨rfl, rfl⟩ := List.cons.inj e
  simp

theorem cutFrom_ne_nil (separator part text : List Char) : cutFrom separator part text ≠ [] := by
  fun_induction cutFrom separator part text <;> simp_all

-- Cutting loses only the occurrences of the separator that it cuts at.
theorem intercalate_cutFrom (hs : separator ≠ []) (part text : List Char) :
    separator.intercalate (cutFrom separator part text) = part.reverse ++ text := by
  fun_induction cutFrom separator part text with
  | case1 part => simp
  | case2 part c rest h ih =>
    have hcut := append_drop_of_prefix hs (List.isPrefixOf_iff_prefix.mp h)
    rw [List.intercalate_cons_of_ne_nil (cutFrom_ne_nil _ _ _), ih, List.reverse_nil,
      List.nil_append, List.append_assoc, hcut]
  | case3 part c rest h ih => simpa using ih

-- The search goes on behind an occurrence, where no part has been begun yet.
theorem not_infix_of_mem_cutFrom (hs : separator ≠ []) (h : Clear separator part.reverse text)
    (hp : p ∈ cutFrom separator part text) : ¬ separator <:+: p := by
  fun_induction cutFrom separator part text with
  | case1 part =>
    rw [List.mem_singleton.mp hp]
    exact h.not_infix hs
  | case2 part c rest _ ih =>
    cases hp
    case head    => exact h.not_infix hs
    case tail hp => exact ih (clear_nil _ _) hp
  | case3 part c rest hc ih =>
    have hc : ¬ separator <+: c :: rest := mt List.isPrefixOf_iff_prefix.mpr hc
    exact ih (by simpa using h.snoc hc) hp

theorem intercalate_nil_singletons (text : List Char) :
    [].intercalate (text.map fun c => [c]) = text := by
  induction text with
  | nil => rfl
  | cons c text ih =>
    cases text with
    | nil      => rfl
    | cons d _ => rw [List.map_cons, List.intercalate_cons_of_ne_nil (by simp), ih]; rfl

theorem join_split (separator s : String) : join separator (split separator s) = s := by
  rw [← String.toList_inj, join, String.toList_intercalate, split]
  split
  case isTrue h =>
    rw [String.isEmpty_iff.mp h]
    simpa [Function.comp_def] using intercalate_nil_singletons s.toList
  case isFalse h =>
    have hs : separator.toList ≠ [] := by simpa using h
    simpa [Function.comp_def] using intercalate_cutFrom hs [] s.toList

theorem not_infix_of_mem_split {part : String} (hs : s ≠ "") (hp : part ∈ split s t) :
    ¬ s.toList <:+: part.toList := by
  have hs : s.toList ≠ [] := by simpa using hs
  rw [split, if_neg (by simpa using hs)] at hp
  obtain ⟨p, hmem, rfl⟩ := List.mem_map.mp hp
  have hclear : Clear s.toList [].reverse t.toList := clear_nil _ _
  rw [String.toList_ofList]
  exact not_infix_of_mem_cutFrom hs hclear hmem

end Text

namespace Json

theorem join_strings (separator : String) (parts : List String) :
    (arr (parts.map str)).join separator = str (Text.join separator parts) := by
  simp [join, isContainer, Function.comp_def, display]

end Json

-- A text comes back when its parts are joined, and no part has the separator in it unless that is
-- empty.
theorem Builtin.join_undoes_split (o : Options) (depth : Nat) (separator s : String) :
    ∃ parts : List String,
      (Builtin.split separator).apply o depth (.str s) = .ok (.arr (parts.map .str)) ∧
      (Builtin.join separator).apply o depth (.arr (parts.map .str)) = .ok (.str s) ∧
      (separator ≠ "" → ∀ part ∈ parts, ¬ separator.toList <:+: part.toList) := by
  refine ⟨Text.split separator s, ?split, ?join, fun hs part => Text.not_infix_of_mem_split hs⟩
  case split => rw [Builtin.apply, Json.split]
  case join  => rw [Builtin.apply, Json.join_strings, Text.join_split]

theorem Builtin.join_undoes_split_overlapping :
    let parts := ["", "ab", "a"]
    (Builtin.split "aa").apply .default 0 (.str "aaabaaa") = .ok (.arr (parts.map .str)) ∧
    (Builtin.join "aa").apply .default 0 (.arr (parts.map .str)) = .ok (.str "aaabaaa") ∧
    "aa" ≠ "" ∧ ∀ part ∈ parts, ¬ "aa".toList <:+: part.toList := by
  intro parts
  obtain ⟨found, hs, hj, hn⟩ := Builtin.join_undoes_split .default 0 "aa" "aaabaaa"
  have hparts : (Builtin.split "aa").apply .default 0 (.str "aaabaaa") =
      .ok (.arr (parts.map .str)) := by decide +kernel
  have hfound : found = parts := by
    have e := Json.arr.inj (Except.ok.inj (hs.symm.trans hparts))
    exact List.map_injective_iff.mpr (fun _ _ => Json.str.inj) e
  subst hfound
  exact ⟨hs, hj, by decide, hn (by decide)⟩

end JsonQuery
