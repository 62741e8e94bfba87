import JsonQuery.Proofs.Fields

namespace JsonQuery

open Grammar

-- A rule is settled if it takes the same from every text that goes on with the same character
-- behind what it takes, or not at all.
def Settled {α : Type} (rule : List Char → Option (α × List Char)) : Prop :=
  ∀ text x rest, rule text = some (x, rest) → ∃ taken, text = taken ++ rest ∧
    ∀ rest', (∀ c ∈ rest'.head?, c ∈ rest.head?) → rule (taken ++ rest') = some (x, rest')

theorem Settled.bind {α β : Type} {rule : List Char → Option (α × List Char)}
    {next : α → List Char → Option (β × List Char)} (h : Settled rule)
    (hn : ∀ x, Settled (next x)) :
    Settled fun text => (rule text).bind fun found => next found.1 found.2 := by
  intro text y rest hy
  obtain ⟨⟨x, mid⟩, hx, hy⟩ := Option.bind_eq_some_iff.mp hy
  obtain ⟨first, ht, hs⟩ := h text x mid hx
  obtain ⟨second, hm, hs'⟩ := hn x mid y rest hy
  refine ⟨first ++ second, by rw [ht, hm, List.append_assoc], fun rest' hr => ?_⟩
  have hh : ∀ c ∈ (second ++ rest').head?, c ∈ mid.head? := by
    intro c hc
    rw [hm]
    cases second with
    | nil       => exact hr c hc
    | cons d ds => exact hc
  rw [List.append_assoc]
  exact Option.bind_eq_some_iff.mpr ⟨(x, second ++ rest'), hs _ hh, hs' rest' hr⟩

theorem settled_some {α : Type} (x : α) : Settled fun text => some (x, text) := by
  intro text _ rest h
  cases h
  exact ⟨[], rfl, fun _ _ => rfl⟩

namespace Numeral

theorem digitsOf_settled (text : List Char) : ∃ digits, text = digits ++ (digitsOf text).2 ∧
    ∀ rest', (∀ c ∈ rest'.head?, c ∈ (digitsOf text).2.head?) →
      digitsOf (digits ++ rest') = ((digitsOf text).1, rest') := by
  refine ⟨text.takeWhile Char.isDigit, List.takeWhile_append_dropWhile.symm, fun rest' hr => ?_⟩
  have hd : ∀ c ∈ text.takeWhile Char.isDigit, c.isDigit = true :=
    List.all_eq_true.mp List.all_takeWhile
  obtain ⟨ht, hr⟩ := takeWhile_append_of_head? hd fun c hc => head?_dropWhile c (hr c hc)
  rw [digitsOf, ht, hr]
  rfl

theorem digitsOf_cons {c : Char} (hc : c.isDigit = true) (text : List Char) :
    digitsOf (c :: text) = (c :: (digitsOf text).1, (digitsOf text).2) := by
  simp [digitsOf, hc]

theorem settled_whole? : Settled whole? := by
  intro text whole rest h
  unfold whole? at h
  split at h
  case _ =>
    cases h
    exact ⟨['0'], rfl, fun _ _ => rfl⟩
  case _ c r _ =>
    split at h
    case isFalse => cases h
    case isTrue hc =>
      rw [digitsOf_cons hc] at h
      cases h
      obtain ⟨digits, ht, hs⟩ := digitsOf_settled r
      refine ⟨c :: digits, congrArg (c :: ·) ht, fun rest' hr => ?_⟩
      simp [whole?, hc, digitsOf_cons, hs rest' hr]
  case _ => cases h

theorem settled_fraction? : Settled fraction? := by
  intro text fraction rest h
  unfold fraction? at h
  split at h
  case _ text =>
    dsimp only at h
    split at h
    case isTrue => cases h
    case isFalse hn =>
      cases h
      obtain ⟨digits, ht, hs⟩ := digitsOf_settled text
      refine ⟨'.' :: digits, congrArg ('.' :: ·) ht, fun rest' hr => ?_⟩
      simp [fraction?, hs rest' hr, hn]
  case _ hd =>
    cases h
    refine ⟨[], rfl, fun rest' hr => ?_⟩
    cases rest' with
    | nil => rfl
    | cons c rest' =>
      obtain ⟨r, e⟩ := List.head?_eq_some_iff.mp (hr c rfl)
      have hc : c ≠ '.' := fun hc => hd r (hc ▸ e)
      simp [fraction?, hc]

theorem settled_exponentDigits? (neg : Bool) : Settled (exponentDigits? neg) := by
  intro text exponent rest h
  simp only [exponentDigits?] at h
  split at h
  case isTrue => cases h
  case isFalse hn =>
    cases h
    obtain ⟨digits, ht, hs⟩ := digitsOf_settled text
    refine ⟨digits, ht, fun rest' hr => ?_⟩
    simp [exponentDigits?, hs rest' hr, hn]

theorem settled_exponent? : Settled exponent? := by
  intro text exponent rest h
  unfold exponent? at h
  split at h
  case _ c r =>
    split at h
    case isTrue hc =>
      split at h
      case _ r | _ r =>
        obtain ⟨digits, ht, hs⟩ := settled_exponentDigits? _ _ _ _ h
        refine ⟨c :: _ :: digits, by rw [ht]; rfl, fun rest' hr => ?_⟩
        simp [exponent?, hc, hs rest' hr]
      case _ hm hp =>
        obtain ⟨digits, ht, hs⟩ := settled_exponentDigits? _ _ _ _ h
        refine ⟨c :: digits, by rw [ht]; rfl, fun rest' hr => ?_⟩
        cases digits with
        | nil => cases hs [] (by simp)
        | cons d ds =>
          have hm : d ≠ '-' := fun e => hm (ds ++ rest) (e ▸ ht)
          have hp : d ≠ '+' := fun e => hp (ds ++ rest) (e ▸ ht)
          simpa [exponent?, hc, hm, hp] using hs rest' hr
    case isFalse hc =>
      cases h
      refine ⟨[], rfl, fun rest' hr => ?_⟩
      cases rest' with
      | nil => rfl
      | cons d rest' =>
        cases hr d rfl
        simp [exponent?, hc]
  case _ =>
    cases h
    refine ⟨[], rfl, fun rest' hr => ?_⟩
    cases rest' with
    | nil => rfl
    | cons d rest' => cases hr d rfl

theorem settled_read? (neg : Bool) : Settled (read? neg) := by
  have h := settled_whole?.bind fun whole => settled_fraction?.bind fun fraction =>
    settled_exponent?.bind fun exponent => settled_some (Numeral.mk neg whole fraction exponent)
  exact h

end Numeral

namespace Lexeme

variable {text rest : List Char} {l : Lexeme}

-- A string ends at its closing quote, whatever comes behind it.
theorem parts?_append {ps : List Part} (h : parts? text = some (ps, rest)) :
    ∃ taken, text = taken ++ '"' :: rest ∧
      ∀ rest', parts? (taken ++ '"' :: rest') = some (ps, rest') := by
  fun_induction parts? text generalizing ps rest with
  | case1 => cases h
  | case2 =>
    cases h
    exact ⟨[], rfl, fun _ => rfl⟩
  | case3 a b c d r ih =>
    obtain ⟨n, hu, h⟩ := Option.bind_eq_some_iff.mp h
    obtain ⟨⟨ps, rest⟩, hr, e⟩ := Option.bind_eq_some_iff.mp h
    cases e
    obtain ⟨taken, ht, hs⟩ := ih hr
    refine ⟨'\\' :: 'u' :: a :: b :: c :: d :: taken, by rw [ht]; rfl, fun rest' => ?_⟩
    simp [parts?, hu, hs rest']
  | case4 e r hu ih =>
    obtain ⟨c, hc, h⟩ := Option.bind_eq_some_iff.mp h
    obtain ⟨⟨ps, rest⟩, hr, e'⟩ := Option.bind_eq_some_iff.mp h
    cases e'
    obtain ⟨taken, ht, hs⟩ := ih hr
    have he : e ≠ 'u' := by
      rintro rfl
      cases hc
    refine ⟨'\\' :: e :: taken, by rw [ht]; rfl, fun rest' => ?_⟩
    simp [parts?_backslash he hc, hs rest']
  | case5 => cases h
  | case6 c r hq _ _ hc ih =>
    obtain ⟨⟨ps, rest⟩, hr, e⟩ := Option.bind_eq_some_iff.mp h
    cases e
    obtain ⟨taken, ht, hs⟩ := ih hr
    refine ⟨c :: taken, by rw [ht]; rfl, fun rest' => ?_⟩
    simp [parts?_plain (fun h => hc (.inl h)) hq (fun h => hc (.inr h)), hs rest']

theorem settled_read? : Settled read? := by
  intro text l rest h
  unfold read? at h
  split at h
  case h_10 =>
    obtain ⟨⟨ps, _⟩, hp, e⟩ := Option.map_eq_some_iff.mp h
    cases e
    obtain ⟨taken, ht, hs⟩ := parts?_append hp
    exact ⟨'"' :: (taken ++ ['"']), by simp [ht], fun rest' _ => by simp [read?, hs rest']⟩
  case h_11 =>
    obtain ⟨⟨n, _⟩, hn, e⟩ := Option.map_eq_some_iff.mp h
    cases e
    obtain ⟨taken, ht, hs⟩ := Numeral.settled_read? true _ _ _ hn
    exact ⟨'-' :: taken, by rw [ht]; rfl, fun rest' hr => by simp [read?, hs rest' hr]⟩
  case h_12 =>
    obtain ⟨⟨n, _⟩, hn, e⟩ := Option.map_eq_some_iff.mp h
    cases e
    obtain ⟨taken, ht, hs⟩ := Numeral.settled_read? false _ _ _ hn
    refine ⟨taken, ht, fun rest' hr => ?_⟩
    obtain ⟨c, cs, e, hc⟩ := head_of_numeral (hs rest' hr)
    rw [e, read?_digit hc, ← e, hs rest' hr]
    rfl
  all_goals
    cases h
    first
    | exact ⟨[_], rfl, fun _ _ => rfl⟩
    | exact ⟨[_, _, _, _], rfl, fun _ _ => rfl⟩
    | exact ⟨[_, _, _, _, _], rfl, fun _ _ => rfl⟩

theorem endsVisibly_of_any (hn : text ≠ []) (h : text.any Text.isBlank = false) :
    (∃ c cs, text = c :: cs ∧ Text.isBlank c = false) ∧ EndsVisibly text := by
  have h (c) (hc : c ∈ text) : Text.isBlank c = false :=
    Bool.eq_false_of_not_eq_true (List.any_eq_false.mp h c hc)
  constructor
  case left =>
    obtain ⟨c, cs, e⟩ := List.exists_cons_of_ne_nil hn
    exact ⟨c, cs, e, h c (e ▸ List.mem_cons_self)⟩
  case right => exact ⟨_, _, (List.dropLast_append_getLast hn).symm, h _ (List.getLast_mem hn)⟩

-- No lexeme has white space around it.
theorem endsVisibly_of_read? (h : read? text = some (l, [])) :
    (∃ c cs, text = c :: cs ∧ Text.isBlank c = false) ∧ EndsVisibly text := by
  have hnum (n : Option Number) (hl : l = num n) :
      (∃ c cs, text = c :: cs ∧ Text.isBlank c = false) ∧ EndsVisibly text := by
    subst hl
    obtain ⟨taken, e, hp⟩ := takes_of_read?_num h
    rw [List.append_nil] at e
    subst e
    refine endsVisibly_of_any (fun e => ?_) (List.any_eq_false.mpr fun c hc =>
      Bool.not_eq_true _ ▸ isBlank_eq_false_of (p := Numeral.isPart) (by decide) (hp c hc))
    subst e
    cases h
  unfold read? at h
  split at h
  case h_10 =>
    obtain ⟨⟨ps, _⟩, hp, e⟩ := Option.map_eq_some_iff.mp h
    cases e
    obtain ⟨taken, ht, _⟩ := parts?_append hp
    exact ⟨⟨'"', _, rfl, by decide⟩, '"' :: taken, '"', by rw [ht]; rfl, by decide⟩
  case h_11 | h_12 =>
    obtain ⟨⟨n, _⟩, _, e⟩ := Option.map_eq_some_iff.mp h
    cases e
    exact hnum n.value? rfl
  all_goals
    cases h
    exact endsVisibly_of_any (by simp) (by decide)

end Lexeme

namespace Text

variable {a b text : List Char}

theorem isBlank_of_isSpace {c : Char} (h : Lexeme.isSpace c = true) : isBlank c = true := by
  by_contra hn
  simpa [h] using isSpace_of_not_isBlank (Bool.eq_false_of_not_eq_true hn)

theorem trimStart_append (h : ∀ c ∈ a, Lexeme.isSpace c = true) (b : List Char) :
    trimStart (a ++ b) = trimStart b := by
  rw [trimStart, List.dropWhile_append_of_pos fun c hc => isBlank_of_isSpace (h c hc)]
  rfl

theorem trimEnd_append_of_endsVisibly (h : EndsVisibly a) (b : List Char) :
    trimEnd (a ++ b) = a ++ trimEnd b := by
  obtain ⟨cs, c, rfl, hc⟩ := h
  cases hb : b.reverse.dropWhile isBlank <;>
    simp [trimEnd, List.dropWhile_append, hb, hc]

theorem trimEnd_of_forall (h : ∀ c ∈ text, isBlank c = true) : trimEnd text = [] := by
  simpa [trimEnd] using h

end Text

namespace Lexeme

variable {text text' : List Char} {ls : List Lexeme}

theorem readAll?_eq (text : List Char) : readAll? text =
    match text.dropWhile isSpace with
    | []     => some []
    | c :: r => (read? (c :: r)).bind fun (l, rest) => (readAll? rest).map (l :: ·) := by
  rw [readAll?]
  split
  case _ ht => rw [ht]
  case _ ht =>
    split
    case _ hr => simp [ht, hr]
    case _ hr => simp [ht, hr]

-- What stands in front of the first lexeme does not matter.
theorem readAll?_congr (h : text.dropWhile isSpace = text'.dropWhile isSpace) :
    readAll? text = readAll? text' := by
  rw [readAll?_eq, h, ← readAll?_eq]

theorem readAll?_spaces {spaces : List Char} (h : ∀ c ∈ spaces, isSpace c = true)
    (text : List Char) : readAll? (spaces ++ text) = readAll? text :=
  readAll?_congr (List.dropWhile_append_of_pos h)

-- A text without lexemes holds nothing but spaces.
theorem isSpace_of_readAll?_nil (h : readAll? text = some []) : ∀ c ∈ text, isSpace c = true := by
  rw [readAll?_eq] at h
  split at h
  case _ hd => exact List.dropWhile_eq_nil_iff.mp hd
  case _ =>
    obtain ⟨_, _, h⟩ := Option.bind_eq_some_iff.mp h
    obtain ⟨_, _, e⟩ := Option.map_eq_some_iff.mp h
    cases e

-- What the first lexeme of a text is written with.
theorem exists_of_dropWhile {c : Char} {r : List Char} {l : Lexeme} {rest : List Char}
    (hd : text.dropWhile isSpace = c :: r) (hr : read? (c :: r) = some (l, rest)) :
    ∃ spaces taken, text = spaces ++ (taken ++ rest) ∧ (∀ c ∈ spaces, isSpace c = true) ∧
      (∃ c cs, taken = c :: cs ∧ Text.isBlank c = false) ∧ EndsVisibly taken ∧
      ∀ rest', (∀ c ∈ rest'.head?, c ∈ rest.head?) → read? (taken ++ rest') = some (l, rest') := by
  obtain ⟨taken, e, hs⟩ := settled_read? _ _ _ hr
  have hw := hs [] (by simp)
  rw [List.append_nil] at hw
  obtain ⟨hstart, hend⟩ := endsVisibly_of_read? hw
  refine ⟨text.takeWhile isSpace, taken, ?_, List.all_eq_true.mp List.all_takeWhile, hstart, hend,
    hs⟩
  rw [← e, ← hd, List.takeWhile_append_dropWhile]

theorem head?_trimEnd (text : List Char) : ∀ c ∈ (Text.trimEnd text).head?, c ∈ text.head? := by
  intro c hc
  obtain ⟨blanks, e, _⟩ := Text.trimEnd_append text
  rw [e, List.head?_append, hc]
  rfl

theorem readAll?_trimEnd (h : readAll? text = some ls) :
    readAll? (Text.trimEnd text) = some ls := by
  fun_induction readAll? text generalizing ls with
  | case1 text hd =>
    have hb : Text.trimEnd text = [] := Text.trimEnd_of_forall fun c hc =>
      Text.isBlank_of_isSpace (List.dropWhile_eq_nil_iff.mp hd c hc)
    rw [hb, readAll?_nil, h]
  | case2 => cases h
  | case3 text c r hd l rest hr _ ih =>
    obtain ⟨ls, hls, e⟩ := Option.map_eq_some_iff.mp h
    cases e
    obtain ⟨spaces, taken, e, hspaces, _, hend, hs⟩ := exists_of_dropWhile hd hr
    have ht : Text.trimEnd text = spaces ++ (taken ++ Text.trimEnd rest) := by
      rw [e, ← List.append_assoc,
        Text.trimEnd_append_of_endsVisibly (endsVisibly_append hend spaces), List.append_assoc]
    rw [ht, readAll?_spaces hspaces, readAll?_of_read? (hs _ (head?_trimEnd rest)), ih hls]
    rfl

-- The white space in front of the first lexeme is nothing but spaces.
theorem trimStart_eq_dropWhile (h : readAll? text = some ls) :
    Text.trimStart text = text.dropWhile isSpace := by
  rw [readAll?_eq] at h
  split at h
  case _ hd =>
    rw [hd]
    exact List.dropWhile_eq_nil_iff.mpr fun c hc =>
      Text.isBlank_of_isSpace (List.dropWhile_eq_nil_iff.mp hd c hc)
  case _ c r hd =>
    obtain ⟨⟨l, rest⟩, hr, _⟩ := Option.bind_eq_some_iff.mp h
    obtain ⟨spaces, taken, e, hspaces, ⟨d, ds, hc, hb⟩, _, _⟩ := exists_of_dropWhile hd hr
    have hsp : isSpace d = false := isSpace_of_not_isBlank hb
    rw [e, Text.trimStart_append hspaces, List.dropWhile_append_of_pos hspaces, hc,
      List.cons_append, Text.trimStart_cons hb, List.dropWhile_cons_of_neg (by simp [hsp])]

theorem readAll?_dropWhile (text : List Char) :
    readAll? (text.dropWhile isSpace) = readAll? text :=
  readAll?_congr (skipSpace_skipSpace text)

end Lexeme

namespace Json

variable {text : List Char} {v : Json}

theorem exists_lexemes_of_read? (h : read? text = some v) :
    ∃ ls, Lexeme.readAll? text = some ls ∧
      ∀ text', Lexeme.readAll? text' = some ls → read? text' = some v := by
  obtain ⟨d, hd, h⟩ := Option.bind_eq_some_iff.mp h
  obtain ⟨ls, hls, hd⟩ := Option.bind_eq_some_iff.mp hd
  refine ⟨ls, hls, fun text' ht => ?_⟩
  rw [read?, Draft.read?, ht, Option.bind_some, hd, Option.bind_some, h]

theorem trimStart_of_read? (h : read? text = some v) : Text.trimStart text = skipSpace text := by
  obtain ⟨ls, hls, _⟩ := exists_lexemes_of_read? h
  exact Lexeme.trimStart_eq_dropWhile hls

theorem trim_of_read? (h : read? text = some v) :
    Text.trim text = Text.trimEnd (skipSpace text) := by
  rw [Text.trim, trimStart_of_read? h]

theorem read?_skipSpace (h : read? text = some v) : read? (skipSpace text) = some v := by
  obtain ⟨ls, hls, hv⟩ := exists_lexemes_of_read? h
  exact hv _ ((Lexeme.readAll?_dropWhile text).trans hls)

-- White space around the text of a document does not matter.
theorem read?_trim (h : read? text = some v) : read? (Text.trim text) = some v := by
  obtain ⟨ls, hls, hv⟩ := exists_lexemes_of_read? (read?_skipSpace h)
  rw [trim_of_read? h]
  exact hv _ (Lexeme.readAll?_trimEnd hls)

theorem read?_nil : read? [] = none := by
  simp [read?, Draft.read?, Lexeme.readAll?_nil, Draft.State.run]

theorem ne_nil_of_read? (h : read? text = some v) : text ≠ [] := by
  rintro rfl
  cases h.symm.trans read?_nil

end Json

end JsonQuery
