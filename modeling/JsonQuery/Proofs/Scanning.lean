import JsonQuery.Path.Rules

namespace JsonQuery

namespace Balanced

-- Whether a scan is outside of strings, inside of one, or behind a backslash in one.
inductive Mark where
  | outside
  | inside (quote : Char)
  | escaped (quote : Char)
  deriving DecidableEq

def Mark.next : Mark → Char → Mark
  | outside,   c => if isQuote c then inside c else outside
  | inside q,  c => if c = '\\' then escaped q else if c = q then outside else inside q
  | escaped q, _ => inside q

-- How far a text has been scanned: so many brackets are open.
structure Scan where
  depth : Nat
  mark  : Mark
  deriving DecidableEq

namespace Scan

-- One character further. A stop character that is neither quoted nor enclosed in brackets ends the
-- scan.
def next? (stops : List Char) (s : Scan) (c : Char) : Option Scan :=
  match s.mark with
  | .outside =>
    if isQuote c then some ⟨s.depth, .inside c⟩
    else if opens c then some ⟨s.depth + 1, .outside⟩
    else if closes c && s.depth != 0 then some ⟨s.depth - 1, .outside⟩
    else if s.depth == 0 && stops.contains c then none
    else some s
  | m => some ⟨s.depth, m.next c⟩

def run? (stops : List Char) (s : Scan) (text : List Char) : Option Scan :=
  text.foldlM (next? stops) s

variable {stops : List Char} {s s' : Scan} {a b : List Char} {c : Char}

theorem run?_cons (stops : List Char) (s : Scan) (c : Char) (text : List Char) :
    run? stops s (c :: text) = (next? stops s c).bind (run? stops · text) := by
  rw [run?, List.foldlM_cons]
  rfl

theorem run?_append (stops : List Char) (s : Scan) (a b : List Char) :
    run? stops s (a ++ b) = (run? stops s a).bind (run? stops · b) := by
  rw [run?, List.foldlM_append]
  rfl

theorem mark_of_next? (h : next? stops s c = some s') : s'.mark = s.mark.next c := by
  unfold next? at h
  split at h
  case _ hm =>
    rw [hm, Mark.next]
    split at h
    case isTrue hq =>
      cases h
      simp [hq]
    case isFalse hq =>
      rw [if_neg hq]
      split at h
      case isTrue =>
        cases h
        rfl
      case isFalse =>
        split at h
        case isTrue =>
          cases h
          rfl
        case isFalse =>
          split at h
          case isTrue => cases h
          case isFalse =>
            cases h
            exact hm
  case _ =>
    cases h
    rfl

-- Strings open and close wherever brackets do.
theorem mark_of_run? (h : run? stops s a = some s') : s'.mark = a.foldl Mark.next s.mark := by
  induction a generalizing s with
  | nil =>
    cases h
    rfl
  | cons c a ih =>
    rw [run?_cons] at h
    obtain ⟨t, ht, h⟩ := Option.bind_eq_some_iff.mp h
    rw [ih h, mark_of_next? ht]
    rfl

end Scan

-- The mark of a scan that a cut may start with.
def Mark.ofQuote : Option Char → Mark
  | none   => .outside
  | some q => .inside q

section

open Scan

variable {stops before after text : List Char} {depth : Nat} {quote : Option Char} {c : Char}

theorem run?_backslash (stops : List Char) (depth : Nat) (q c : Char) (text : List Char) :
    run? stops ⟨depth, .ofQuote (some q)⟩ ('\\' :: c :: text) =
      run? stops ⟨depth, .ofQuote (some q)⟩ text :=
  rfl

theorem run?_quoted {q : Char} (hc : c ≠ '\\') :
    run? stops ⟨depth, .ofQuote (some q)⟩ (c :: text) =
      run? stops ⟨depth, .ofQuote (if c = q then none else some q)⟩ text := by
  have hn : next? stops ⟨depth, .ofQuote (some q)⟩ c =
      some ⟨depth, .ofQuote (if c = q then none else some q)⟩ := by
    simp only [next?, Mark.ofQuote, Mark.next, hc, if_false]
    split <;> rfl
  rw [run?_cons, hn]
  rfl

theorem run?_quote (hq : isQuote c = true) : run? stops ⟨depth, .ofQuote none⟩ (c :: text) =
    run? stops ⟨depth, .ofQuote (some c)⟩ text := by
  simp [run?_cons, next?, Mark.ofQuote, hq]

theorem run?_opening (hq : isQuote c = false) (ho : opens c = true) :
    run? stops ⟨depth, .ofQuote none⟩ (c :: text) =
      run? stops ⟨depth + 1, .ofQuote none⟩ text := by
  simp [run?_cons, next?, Mark.ofQuote, hq, ho]

theorem run?_closing (hq : isQuote c = false) (ho : opens c = false)
    (hc : (closes c && depth != 0) = true) : run? stops ⟨depth, .ofQuote none⟩ (c :: text) =
      run? stops ⟨depth - 1, .ofQuote none⟩ text := by
  simp only [run?_cons, next?, Mark.ofQuote, hq, ho, hc, Bool.false_eq_true, if_false, if_true]
  rfl

theorem run?_stop (hq : isQuote c = false) (ho : opens c = false)
    (hc : (closes c && depth != 0) = false) (hs : (depth == 0 && stops.contains c) = true) :
    run? stops ⟨depth, .ofQuote none⟩ (c :: text) = none := by
  simp only [run?_cons, next?, Mark.ofQuote, hq, ho, hc, hs, Bool.false_eq_true, if_false, if_true]
  rfl

theorem run?_other (hq : isQuote c = false) (ho : opens c = false)
    (hc : (closes c && depth != 0) = false) (hs : (depth == 0 && stops.contains c) = false) :
    run? stops ⟨depth, .ofQuote none⟩ (c :: text) = run? stops ⟨depth, .ofQuote none⟩ text := by
  simp only [run?_cons, next?, Mark.ofQuote, hq, ho, hc, hs, Bool.false_eq_true, if_false]
  rfl

-- What is cut off is scanned up to its end.
theorem run?_of_cut? (h : cut? stops depth quote text = some (before, after)) :
    run? stops ⟨depth, .ofQuote quote⟩ before = some ⟨0, .outside⟩ := by
  fun_induction cut? stops depth quote text generalizing before with
  | case1 => cases h
  | case2 depth q d rest ih =>
    obtain ⟨⟨inner, _⟩, hr, e⟩ := Option.map_eq_some_iff.mp h
    cases e
    exact (run?_backslash ..).trans (ih hr)
  | case3 depth q d rest hd ih =>
    obtain ⟨⟨inner, _⟩, hr, e⟩ := Option.map_eq_some_iff.mp h
    cases e
    -- A backslash at the very end of the text would leave the string open.
    have hd : d ≠ '\\' := by
      intro hs
      cases rest with
      | nil => simp [cut?] at hr
      | cons e rest => exact hd e rest hs rfl
    exact (run?_quoted hd).trans (ih hr)
  | case4 depth d rest hq ih =>
    obtain ⟨⟨inner, _⟩, hr, e⟩ := Option.map_eq_some_iff.mp h
    cases e
    exact (run?_quote hq).trans (ih hr)
  | case5 depth d rest hq ho ih =>
    obtain ⟨⟨inner, _⟩, hr, e⟩ := Option.map_eq_some_iff.mp h
    cases e
    exact (run?_opening (by simpa using hq) ho).trans (ih hr)
  | case6 depth d rest hq ho hc ih =>
    obtain ⟨⟨inner, _⟩, hr, e⟩ := Option.map_eq_some_iff.mp h
    cases e
    exact (run?_closing (by simpa using hq) (by simpa using ho) hc).trans (ih hr)
  | case7 depth d rest hq ho hc hs =>
    cases h
    have hd : depth = 0 := by simpa using (Bool.and_eq_true_iff.mp hs).1
    rw [hd]
    rfl
  | case8 depth d rest hq ho hc hs ih =>
    obtain ⟨⟨inner, _⟩, hr, e⟩ := Option.map_eq_some_iff.mp h
    cases e
    exact (run?_other (by simpa using hq) (by simpa using ho) (Bool.eq_false_iff.mpr hc)
      (Bool.eq_false_iff.mpr hs)).trans (ih hr)

-- What is scanned up to its end is cut off in front of a stop character.
theorem cut?_of_run? (h : run? stops ⟨depth, .ofQuote quote⟩ before = some ⟨0, .outside⟩)
    (hs : c ∈ stops) (hq : isQuote c = false) (ho : opens c = false) :
    cut? stops depth quote (before ++ c :: after) = some (before, c :: after) := by
  fun_induction cut? stops depth quote before with
  | case1 depth quote =>
    cases quote with
    | none =>
      cases h
      simp [cut?, hq, ho, hs]
    | some q => cases h
  | case2 depth q d rest ih =>
    rw [run?_backslash] at h
    simp [cut?, ih h]
  | case3 depth q d rest hd ih =>
    have hne : d ≠ '\\' := by
      intro he
      cases rest with
      | nil =>
        rw [he] at h
        cases h
      | cons e rest => exact hd e rest he rfl
    rw [run?_quoted hne] at h
    simp [cut?, hne, ih h]
  | case4 depth d rest hd ih =>
    rw [run?_quote hd] at h
    simp [cut?, hd, ih h]
  | case5 depth d rest hd hd' ih =>
    rw [run?_opening (by simpa using hd) hd'] at h
    simp [cut?, hd, hd', ih h]
  | case6 depth d rest hd hd' hc ih =>
    rw [run?_closing (by simpa using hd) (by simpa using hd') hc] at h
    simp only [List.cons_append, cut?, hd, hd', hc, Bool.false_eq_true, if_true, if_false, ih h,
      Option.map_some]
  | case7 depth d rest hd hd' hc hstop =>
    rw [run?_stop (by simpa using hd) (by simpa using hd') (Bool.eq_false_iff.mpr hc) hstop] at h
    cases h
  | case8 depth d rest hd hd' hc hstop ih =>
    rw [run?_other (by simpa using hd) (by simpa using hd') (Bool.eq_false_iff.mpr hc)
      (Bool.eq_false_iff.mpr hstop)] at h
    simp only [List.cons_append, cut?, hd, hd', hc, hstop, Bool.false_eq_true, if_false, ih h,
      Option.map_some]

end

-- The characters that end a field.
def fieldStops : List Char := [',', '}']

-- The state of a scan through a field, outside of strings.
def scan? (depth : Nat) (text : List Char) : Option Scan :=
  Scan.run? fieldStops ⟨depth, .outside⟩ text

-- A text that is passed at every depth and leaves it as it was.
def Neutral (text : List Char) : Prop := ∀ depth, scan? depth text = some ⟨depth, .outside⟩

-- Whatever is open in front of them, the first text leaves no string open, and the second one can
-- stand in its place.
def Covers (a b : List Char) : Prop :=
  ∀ depth s, scan? depth a = some s → s.mark = .outside ∧ scan? depth b = some s

section

variable {a a' b b' text : List Char} {c : Char}

theorem scan?_append (h : scan? depth a = some ⟨depth', .outside⟩) (b : List Char) :
    scan? depth (a ++ b) = scan? depth' b := by
  rw [scan?, Scan.run?_append, ← scan?, h]
  rfl

theorem neutral_nil : Neutral [] := fun _ => rfl

theorem Neutral.append (ha : Neutral a) (hb : Neutral b) : Neutral (a ++ b) := fun depth =>
  (scan?_append (ha depth) b).trans (hb depth)

theorem Neutral.covers (ha : Neutral a) (hb : Neutral b) : Covers a b := by
  intro depth s h
  cases (ha depth).symm.trans h
  exact ⟨rfl, hb depth⟩

theorem Covers.append (h : Covers a b) (h' : Covers a' b') : Covers (a ++ a') (b ++ b') := by
  intro depth s hs
  rw [scan?, Scan.run?_append] at hs
  obtain ⟨⟨depth', mark⟩, ht, hs⟩ := Option.bind_eq_some_iff.mp hs
  obtain ⟨hm, hb⟩ := h depth _ ht
  dsimp only at hm
  subst hm
  obtain ⟨hm, hb'⟩ := h' depth' s hs
  exact ⟨hm, (scan?_append hb b').trans hb'⟩

-- A text in which all strings are closed.
def Closes (text : List Char) : Prop := text.foldl Mark.next .outside = .outside

theorem Neutral.closes (h : Neutral text) : Closes text := (Scan.mark_of_run? (h 0)).symm

theorem closes_append_iff (h : Closes a) : Closes (a ++ b) ↔ Closes b := by
  rw [Closes, List.foldl_append, h, Closes]

theorem Closes.append (ha : Closes a) (hb : Closes b) : Closes (a ++ b) :=
  (closes_append_iff ha).mpr hb

theorem covers_self (h : Closes text) : Covers text text := fun _ _ hs =>
  ⟨(Scan.mark_of_run? hs).trans h, hs⟩

theorem covers_char (h : isQuote c = false) : Covers [c] [c] :=
  covers_self (by simp [Closes, Mark.next, h])

-- The characters that mean something to a scan of a field.
def marks : List Char := ['"', '\'', '(', '[', '\x7b', ')', ']', '\x7d', ',']

def isPlain (c : Char) : Bool := !marks.contains c

theorem isPlain_of {p : Char → Bool} (hp : marks.any p = false) (h : p c = true) :
    isPlain c = true := by
  have hc : c ∉ marks := fun hc => by simp [List.any_eq_false.mp hp c hc] at h
  simpa [isPlain] using hc

theorem neutral_of_isPlain (h : text.all isPlain = true) : Neutral text := by
  intro depth
  induction text with
  | nil => rfl
  | cons c text ih =>
    obtain ⟨hc, ht⟩ := Bool.and_eq_true_iff.mp (List.all_cons.symm.trans h)
    have hc : c ∉ marks := by simpa [isPlain] using hc
    simp only [marks, List.mem_cons, List.not_mem_nil, or_false, not_or] at hc
    obtain ⟨hd, hs, ho₁, ho₂, ho₃, hc₁, hc₂, hc₃, hcomma⟩ := hc
    have hr : scan? depth (c :: text) = scan? depth text :=
      run?_other (by simp [isQuote, hd, hs]) (by simp [opens, ho₁, ho₂, ho₃])
        (by simp [closes, hc₁, hc₂, hc₃]) (by simp [fieldStops, hcomma, hc₃])
    exact hr.trans (ih ht)

-- A text of which all characters up to the rest are of some kind.
def Takes (p : Char → Bool) (text rest : List Char) : Prop :=
  ∃ taken, text = taken ++ rest ∧ ∀ c ∈ taken, p c = true

section

variable {p : Char → Bool}

theorem takes_refl (text : List Char) : Takes p text text := ⟨[], rfl, nofun⟩

theorem Takes.trans (h : Takes p a b) (h' : Takes p b text) : Takes p a text := by
  obtain ⟨first, rfl, hf⟩ := h
  obtain ⟨second, rfl, hs⟩ := h'
  exact ⟨first ++ second, (List.append_assoc ..).symm, List.forall_mem_append.mpr ⟨hf, hs⟩⟩

theorem takes_char (h : p c = true) (text : List Char) : Takes p (c :: text) text :=
  ⟨[c], rfl, List.forall_mem_singleton.mpr h⟩

theorem takes_dropWhile {p' : Char → Bool} (hp : ∀ c, p' c = true → p c = true)
    (text : List Char) : Takes p text (text.dropWhile p') :=
  ⟨text.takeWhile p', List.takeWhile_append_dropWhile.symm,
    fun c hc => hp c (List.all_eq_true.mp List.all_takeWhile c hc)⟩

end

-- A text of which a scan passes everything up to the rest.
def Passes (text rest : List Char) : Prop := ∃ taken, text = taken ++ rest ∧ Neutral taken

theorem Takes.passes {p : Char → Bool} (hp : marks.any p = false) (h : Takes p a b) :
    Passes a b := by
  obtain ⟨taken, ht, hc⟩ := h
  exact ⟨taken, ht, neutral_of_isPlain (List.all_eq_true.mpr fun c h => isPlain_of hp (hc c h))⟩

theorem passes_refl (text : List Char) : Passes text text := ⟨[], rfl, neutral_nil⟩

theorem Passes.trans (h : Passes a b) (h' : Passes b text) : Passes a text := by
  obtain ⟨first, rfl, hf⟩ := h
  obtain ⟨second, rfl, hs⟩ := h'
  exact ⟨first ++ second, (List.append_assoc ..).symm, hf.append hs⟩

theorem passes_char (h : isPlain c = true) (text : List Char) : Passes (c :: text) text :=
  ⟨[c], rfl, neutral_of_isPlain (by simp [h])⟩

theorem passes_dropWhile {p : Char → Bool} (hp : marks.any p = false) (text : List Char) :
    Passes text (text.dropWhile p) :=
  (takes_dropWhile (fun _ h => h) text).passes hp

-- Text between brackets.
theorem covers_enclosed {c d : Char} (h : Covers a b) (hc : isQuote c = false)
    (hd : isQuote d = false) : Covers (c :: a ++ [d]) (c :: b ++ [d]) :=
  ((covers_char hc).append h).append (covers_char hd)

theorem scan?_opening {c : Char} (h : opens c = true) (depth : Nat) :
    scan? depth [c] = some ⟨depth + 1, .outside⟩ := by
  have hc : (c = '(' ∨ c = '[') ∨ c = '{' := by simpa [opens] using h
  rcases hc with (rfl | rfl) | rfl <;> rfl

theorem scan?_closing {c : Char} (h : closes c = true) (depth : Nat) :
    scan? (depth + 1) [c] = some ⟨depth, .outside⟩ := by
  have hc : (c = ')' ∨ c = ']') ∨ c = '}' := by simpa [closes] using h
  rcases hc with (rfl | rfl) | rfl <;> rfl

theorem scan?_comma (depth : Nat) : scan? (depth + 1) [','] = some ⟨depth + 1, .outside⟩ :=
  rfl

theorem neutral_enclosed {c d : Char} (hc : opens c = true) (hd : closes d = true)
    (h : Neutral text) : Neutral (c :: text ++ [d]) := by
  intro depth
  have ht : scan? depth (c :: text) = some ⟨depth + 1, .outside⟩ :=
    (scan?_append (scan?_opening hc depth) text).trans (h (depth + 1))
  exact (scan?_append ht [d]).trans (scan?_closing hd depth)

end

end Balanced

namespace Quoted

open JsonQuery.Balanced

-- A string is passed as a whole.
theorem scan?_of_contents? {quote : Char} {escape? : Char → Option Char}
    {text content rest : List Char}
    (hq : quote ≠ '\\') (h : contents? quote escape? text = some (content, rest)) :
    ∃ taken, text = taken ++ rest ∧ ∀ depth,
      Scan.run? fieldStops ⟨depth, .ofQuote (some quote)⟩ taken = some ⟨depth, .outside⟩ := by
  fun_induction contents? quote escape? text generalizing content rest with
  | case1 => cases h
  | case2 e text ih =>
    obtain ⟨c, hc, h⟩ := Option.bind_eq_some_iff.mp h
    obtain ⟨⟨content, rest⟩, hr, e'⟩ := Option.bind_eq_some_iff.mp h
    cases e'
    obtain ⟨taken, ht, hs⟩ := ih hr
    exact ⟨'\\' :: e :: taken, by rw [ht]; rfl, fun depth => (run?_backslash ..).trans (hs depth)⟩
  | case3 text _ =>
    cases h
    refine ⟨[quote], rfl, fun depth => ?_⟩
    rw [run?_quoted hq, if_pos rfl]
    rfl
  | case4 => cases h
  | case5 c text _ hcq hc ih =>
    obtain ⟨⟨content, rest⟩, hr, e⟩ := Option.bind_eq_some_iff.mp h
    cases e
    obtain ⟨taken, ht, hs⟩ := ih hr
    refine ⟨c :: taken, by rw [ht]; rfl, fun depth => ?_⟩
    rw [run?_quoted hc, if_neg hcq]
    exact hs depth

theorem passes_of_read? {text rest : List Char} {s : String} (h : read? text = some (s, rest)) :
    Passes text rest := by
  unfold read? at h
  split at h
  case _ text | _ text =>
    obtain ⟨⟨content, r⟩, hr, e⟩ := Option.map_eq_some_iff.mp h
    cases e
    obtain ⟨taken, ht, hs⟩ := scan?_of_contents? (by decide) hr
    exact ⟨_ :: taken, by rw [ht]; rfl, fun depth => (run?_quote rfl).trans (hs depth)⟩
  case _ => cases h

end Quoted

end JsonQuery
