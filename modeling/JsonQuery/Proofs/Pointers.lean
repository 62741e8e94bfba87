import JsonQuery.Proofs.FlatKeys
import JsonQuery.Proofs.Lexing

namespace JsonQuery

namespace Pointer

variable {text token digits : List Char} {tokens texts : List (List Char)} {i : Nat}

-- The text that a token of a pointer stands for. A tilde needs a zero or a one behind it, and a
-- slash stands between tokens only.
def unescape? : List Char → Option (List Char)
  | [] => some []
  | '~' :: '0' :: rest => (unescape? rest).map ('~' :: ·)
  | '~' :: '1' :: rest => (unescape? rest).map ('/' :: ·)
  | c :: rest => if c = '~' ∨ c = '/' then none else (unescape? rest).map (c :: ·)

-- The texts of the tokens of a pointer, in order. A slash is in front of every token.
def tokens? : List Char → Option (List (List Char))
  | [] => some []
  | '/' :: rest => (rest.splitOn '/').mapM unescape?
  | _ => none

-- The index that the text of a token names: digits without leading zeros.
def index? (token : List Char) : Option Nat :=
  if token.head? = some '0' ∧ token ≠ ['0'] then none else natural? token

theorem unescape?_escape (c : Char) (rest : List Char) :
    unescape? (Step.escape c ++ rest) = (unescape? rest).map (c :: ·) := by
  by_cases ht : c = '~'
  case pos =>
    subst ht
    rfl
  case neg =>
    by_cases hs : c = '/'
    case pos =>
      subst hs
      rfl
    case neg =>
      rw [Step.escape, if_neg ht, if_neg hs, List.singleton_append, unescape?] <;> simp_all

theorem unescape?_eq_some_iff : unescape? token = some text ↔ token = text.flatMap Step.escape := by
  constructor
  case mp =>
    intro h
    fun_induction unescape? token generalizing text with
    | case1 =>
      cases h
      rfl
    | case2 rest ih =>
      obtain ⟨text, hr, rfl⟩ := Option.map_eq_some_iff.mp h
      rw [List.flatMap_cons, ← ih hr]
      rfl
    | case3 rest ih =>
      obtain ⟨text, hr, rfl⟩ := Option.map_eq_some_iff.mp h
      rw [List.flatMap_cons, ← ih hr]
      rfl
    | case4 => cases h
    | case5 c rest _ _ hc ih =>
      obtain ⟨text, hr, rfl⟩ := Option.map_eq_some_iff.mp h
      obtain ⟨ht, hs⟩ := not_or.mp hc
      rw [List.flatMap_cons, ← ih hr, Step.escape, if_neg ht, if_neg hs, List.singleton_append]
  case mpr =>
    rintro rfl
    induction text with
    | nil => rfl
    | cons c text ih => rw [List.flatMap_cons, unescape?_escape, ih, Option.map_some]

theorem mapM_unescape?_eq_some_iff :
    tokens.mapM unescape? = some texts ↔ tokens = texts.map (·.flatMap Step.escape) := by
  induction tokens generalizing texts with
  | nil => cases texts <;> simp
  | cons token tokens ih =>
    rw [List.mapM_cons]
    simp only [Option.bind_eq_bind, Option.bind_eq_some_iff, unescape?_eq_some_iff, ih]
    cases texts <;> simp

theorem slash_not_mem_escape (text : List Char) : '/' ∉ text.flatMap Step.escape := by
  simp only [List.mem_flatMap, not_exists, not_and]
  intro c _
  unfold Step.escape
  split
  case isTrue => decide
  case isFalse =>
    split
    case isTrue     => decide
    case isFalse hs => simpa using Ne.symm hs

theorem cons_intercalate (hl : tokens ≠ []) :
    '/' :: ['/'].intercalate tokens = tokens.flatMap ('/' :: ·) := by
  induction tokens with
  | nil => exact absurd rfl hl
  | cons token tokens ih =>
    by_cases h : tokens = []
    case pos => simp [h]
    case neg =>
      rw [List.intercalate_cons_of_ne_nil h, List.flatMap_cons, ← ih h]
      simp

-- A pointer writes its tokens, and every one of them is read again.
theorem tokens?_eq_some_iff : tokens? text = some texts ↔
    text = texts.flatMap fun t => '/' :: t.flatMap Step.escape := by
  have hmap (texts : List (List Char)) : (texts.flatMap fun t => '/' :: t.flatMap Step.escape) =
      (texts.map (·.flatMap Step.escape)).flatMap ('/' :: ·) := by
    simp [List.flatMap_map]
  constructor
  case mp =>
    intro h
    unfold tokens? at h
    split at h
    case _ =>
      cases h
      rfl
    case _ rest =>
      have e := mapM_unescape?_eq_some_iff.mp h
      rw [hmap, ← e, ← cons_intercalate (List.splitOn_ne_nil _ _), List.intercalate_splitOn]
    case _ => cases h
  case mpr =>
    rintro rfl
    cases texts with
    | nil => rfl
    | cons t ts =>
      have hslash : ∀ token ∈ (t :: ts).map (·.flatMap Step.escape), '/' ∉ token :=
        List.forall_mem_map.mpr fun text _ => slash_not_mem_escape text
      rw [hmap, ← cons_intercalate (by simp), tokens?,
        List.splitOn_intercalate _ hslash (by simp)]
      exact mapM_unescape?_eq_some_iff.mpr rfl

theorem exists_digitChar {c : Char} (h : c.isDigit = true) : ∃ d < 10, d.digitChar = c := by
  have hc : 48 ≤ c.toNat ∧ c.toNat ≤ 57 := by simpa [Char.isDigit, UInt32.le_iff_toNat_le] using h
  refine ⟨c.toNat - 48, by omega, Char.toNat_inj.mp ?_⟩
  rw [Nat.toNat_digitChar_of_lt_ten (by omega)]
  omega

-- More digits behind the numeral of a positive number go on with it.
theorem toDigits_append {n : Nat} (hn : 0 < n) (hd : ∀ c ∈ digits, c.isDigit = true) :
    Nat.toDigits 10 n ++ digits = Nat.toDigits 10 (Nat.ofDigitChars 10 digits n) := by
  induction digits generalizing n with
  | nil => simp
  | cons c digits ih =>
    obtain ⟨hc, hrest⟩ := List.forall_mem_cons.mp hd
    obtain ⟨d, hlt, rfl⟩ := exists_digitChar hc
    rw [Nat.ofDigitChars_cons_digitChar_of_lt_ten hlt, ← ih (by omega) hrest,
      ← Nat.toDigits_append_toDigits (by decide) hn hlt, Nat.toDigits_of_lt_base hlt,
      List.append_assoc, List.singleton_append]

theorem toDigits_ofDigitChars (hd : ∀ c ∈ digits, c.isDigit = true) (hl : digits ≠ [])
    (hz : digits.head? = some '0' → digits = ['0']) :
    Nat.toDigits 10 (Nat.ofDigitChars 10 digits 0) = digits := by
  obtain ⟨c, rest, rfl⟩ := List.exists_cons_of_ne_nil hl
  obtain ⟨hc, hrest⟩ := List.forall_mem_cons.mp hd
  obtain ⟨d, hlt, rfl⟩ := exists_digitChar hc
  cases d with
  | zero   => rw [hz rfl]; rfl
  | succ d =>
    rw [Nat.ofDigitChars_cons_digitChar_of_lt_ten hlt, ← toDigits_append (by omega) hrest,
      Nat.mul_zero, Nat.zero_add, Nat.toDigits_of_lt_base hlt, List.singleton_append]

-- An index has one numeral that names it.
theorem index?_eq_some_iff : index? token = some i ↔ token = Nat.toDigits 10 i := by
  constructor
  case mp =>
    intro h
    unfold index? natural? at h
    split at h
    case isTrue  => cases h
    case isFalse hz =>
      split at h
      case isFalse => cases h
      case isTrue hd =>
        cases h
        simp only [Bool.and_eq_true, Bool.not_eq_true', List.isEmpty_eq_false_iff,
          List.all_eq_true] at hd
        exact (toDigits_ofDigitChars hd.2 hd.1 (by simpa using hz)).symm
  case mpr =>
    rintro rfl
    rw [index?, natural?_toDigits, if_neg]
    rintro ⟨hhead, hne⟩
    cases i with
    | zero   => exact hne rfl
    | succ i => exact Numeral.head_toDigits i.succ_pos hhead

end Pointer

theorem Location.toList_pointer (l : Location) :
    l.pointer.toList = l.segments.flatMap fun t => '/' :: t.flatMap Step.escape := by
  simp [pointer, segments, List.flatMap_map, Step.token]

namespace Json

variable {v c x : Json} {s : Step} {l : Location} {text : List Char} {texts : List (List Char)}
  {pointer : String}

-- The step that a token with this text means at a value: a name in an object, and an index in an
-- array.
def step? : Json → List Char → Option Step
  | obj _, text => some (.key (String.ofList text))
  | arr _, text => (Pointer.index? text).map .index
  | _,     _    => none

-- The value that tokens with these texts lead to, with its location.
def locate? (v : Json) : List (List Char) → Option (Location × Json)
  | [] => some ([], v)
  | text :: rest =>
    (v.step? text).bind fun s =>
      (v.child? s).bind fun c => (c.locate? rest).map fun (l, x) => (s :: l, x)

-- The value that a pointer refers to, with its location.
def referent? (v : Json) (pointer : String) : Option (Location × Json) :=
  (Pointer.tokens? pointer.toList).bind v.locate?

theorem step?_eq_some_iff (h : v.child? s = some c) :
    v.step? text = some s ↔ text = s.text.toList := by
  cases v <;> cases s <;> simp only [child?, reduceCtorEq] at h
  case arr.index items i => simp [step?, Pointer.index?_eq_some_iff, Step.text]
  case obj.key ms k      => simp [step?, Step.text, ← String.toList_inj]

-- The induction follows the tokens. At every value its kind tells which step a token means.
theorem locate?_eq_some_iff :
    v.locate? texts = some (l, x) ↔ v.at? l = some x ∧ texts = l.segments := by
  induction texts generalizing v l with
  | nil => cases l <;> simp [locate?, at?_nil]
  | cons text rest ih =>
    simp only [locate?, Option.bind_eq_some_iff, Option.map_eq_some_iff]
    constructor
    case mp =>
      rintro ⟨s, hs, c, hc, ⟨m, y⟩, hm, e⟩
      cases e
      obtain ⟨hat, rfl⟩ := ih.mp hm
      rw [at?_cons, hc, Location.segments_cons, (step?_eq_some_iff hc).mp hs]
      exact ⟨hat, rfl⟩
    case mpr =>
      rintro ⟨hat, e⟩
      cases l with
      | nil      => cases e
      | cons s l =>
        rw [at?_cons] at hat
        obtain ⟨c, hc, hat⟩ := Option.bind_eq_some_iff.mp hat
        obtain ⟨ht, hr⟩ := List.cons.inj e
        exact ⟨s, (step?_eq_some_iff hc).mpr ht, c, hc, (l, x), ih.mpr ⟨hat, hr⟩, rfl⟩

-- A pointer refers to a value just if it is the pointer of a location of the value.
theorem referent?_eq_some_iff :
    v.referent? pointer = some (l, x) ↔ v.at? l = some x ∧ l.pointer = pointer := by
  rw [referent?, Option.bind_eq_some_iff, ← String.toList_inj, Location.toList_pointer]
  constructor
  case mp =>
    rintro ⟨texts, ht, hl⟩
    obtain ⟨hat, rfl⟩ := locate?_eq_some_iff.mp hl
    exact ⟨hat, (Pointer.tokens?_eq_some_iff.mp ht).symm⟩
  case mpr =>
    rintro ⟨hat, e⟩
    exact ⟨l.segments, Pointer.tokens?_eq_some_iff.mpr e.symm, locate?_eq_some_iff.mpr ⟨hat, rfl⟩⟩

-- The pointer of a location refers to what is there and to nothing else, although it does not tell
-- names from indices. No other location of the document has the same pointer, and every pointer
-- that refers to something is the pointer of a location.
theorem pointers_address (v : Json) :
    (∀ (l : Location) x, v.at? l = some x → v.referent? l.pointer = some (l, x)) ∧
    (∀ pointer l x, v.referent? pointer = some (l, x) → v.at? l = some x ∧ l.pointer = pointer) ∧
    ∀ (l m : Location) x y, v.at? l = some x → v.at? m = some y → l ≠ m →
      l.pointer ≠ m.pointer := by
  have hrefers (l : Location) (x) (h : v.at? l = some x) : v.referent? l.pointer = some (l, x) :=
    referent?_eq_some_iff.mpr ⟨h, rfl⟩
  refine ⟨hrefers, fun _ _ _ => referent?_eq_some_iff.mp, fun l m x y hl hm hne e => hne ?_⟩
  have h := hrefers l x hl
  rw [e, hrefers m y hm] at h
  exact (congrArg Prod.fst (Option.some.inj h)).symm

theorem pointers_address_escaped :
    let v : Json := .obj [("", .arr [.null, .obj [("0", .int 1), ("~1/", .int 2)]])]
    let l : Location := [.key "", .index 1, .key "0"]
    let m : Location := [.key "", .index 1, .key "~1/"]
    v.at? l = some (.int 1) ∧ v.referent? "//1/0" = some (l, .int 1) ∧
    v.at? m = some (.int 2) ∧ v.referent? "//1/~01~1" = some (m, .int 2) ∧
    l ≠ m ∧ l.pointer ≠ m.pointer := by
  intro v l m
  obtain ⟨hrefers, _, hne⟩ := pointers_address v
  have hl : v.at? l = some (.int 1) := by decide
  have hm : v.at? m = some (.int 2) := by decide
  have hlm : l ≠ m := by decide
  exact ⟨hl, hrefers l _ hl, hm, hrefers m _ hm, hlm, hne l m _ _ hl hm hlm⟩

end Json

end JsonQuery
