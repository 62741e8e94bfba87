import JsonQuery.Json.Reader
import JsonQuery.Proofs.Scanning

namespace JsonQuery

open JsonQuery.Balanced

namespace Numeral

variable {text rest : List Char} {neg : Bool}

-- The characters of a number behind its sign.
def isPart (c : Char) : Bool :=
  c.isDigit || c = '.' || c = 'e' || c = 'E' || c = '+' || c = '-'

theorem isPart_of_isDigit {c : Char} (h : c.isDigit = true) : isPart c = true := by
  simp [isPart, h]

theorem takes_digitsOf (text : List Char) : Takes isPart text (digitsOf text).2 :=
  takes_dropWhile (fun _ => isPart_of_isDigit) text

theorem takes_of_whole? {whole : List Char} (h : whole? text = some (whole, rest)) :
    Takes isPart text rest := by
  unfold whole? at h
  split at h
  case _ =>
    cases h
    exact takes_char (by decide) _
  case _ c r _ =>
    split at h
    case isTrue =>
      cases h
      exact takes_digitsOf _
    case isFalse => cases h
  case _ => cases h

theorem takes_of_fraction? {fraction : Option (List Char)}
    (h : fraction? text = some (fraction, rest)) : Takes isPart text rest := by
  unfold fraction? at h
  split at h
  case _ =>
    dsimp only at h
    split at h
    case isTrue => cases h
    case isFalse =>
      cases h
      exact (takes_char (by decide) _).trans (takes_digitsOf _)
  case _ =>
    cases h
    exact takes_refl _

theorem takes_of_exponentDigits? {e : Option Int}
    (h : exponentDigits? neg text = some (e, rest)) : Takes isPart text rest := by
  unfold exponentDigits? at h
  dsimp only at h
  split at h
  case isTrue => cases h
  case isFalse =>
    cases h
    exact takes_digitsOf _

theorem takes_of_exponent? {e : Option Int} (h : exponent? text = some (e, rest)) :
    Takes isPart text rest := by
  unfold exponent? at h
  split at h
  case _ c r =>
    split at h
    case isTrue hc =>
      have hp : isPart c = true := by rcases hc with rfl | rfl <;> decide
      refine (takes_char hp r).trans ?_
      split at h
      case _ | _ => exact (takes_char (by decide) _).trans (takes_of_exponentDigits? h)
      case _ => exact takes_of_exponentDigits? h
    case isFalse =>
      cases h
      exact takes_refl _
  case _ =>
    cases h
    exact takes_refl _

theorem takes_of_read? {n : Numeral} (h : read? neg text = some (n, rest)) :
    Takes isPart text rest := by
  simp only [read?, bind, Option.bind_eq_some_iff, pure, Option.some.injEq, Prod.mk.injEq] at h
  obtain ⟨⟨whole, r₁⟩, hw, ⟨fraction, r₂⟩, hf, ⟨exponent, r₃⟩, he, -, rfl⟩ := h
  exact (takes_of_whole? hw).trans ((takes_of_fraction? hf).trans (takes_of_exponent? he))

end Numeral

namespace Lexeme

variable {text rest : List Char} {l : Lexeme}

theorem run?_hexDigit {c : Char} {n depth : Nat} (h : hexDigit? c = some n) (text : List Char) :
    Scan.run? fieldStops ⟨depth, .ofQuote (some '"')⟩ (c :: text) =
      Scan.run? fieldStops ⟨depth, .ofQuote (some '"')⟩ text := by
  have hb : c ≠ '\\' := by
    rintro rfl
    cases h
  have hq : c ≠ '"' := by
    rintro rfl
    cases h
  rw [run?_quoted hb, if_neg hq]

-- A string is passed as a whole.
theorem scan?_of_parts? {ps : List Part} (h : parts? text = some (ps, rest)) :
    ∃ taken, text = taken ++ rest ∧ ∀ depth,
      Scan.run? fieldStops ⟨depth, .ofQuote (some '"')⟩ taken = some ⟨depth, .outside⟩ := by
  fun_induction parts? text generalizing ps rest with
  | case1 => cases h
  | case2 rest' =>
    cases h
    refine ⟨['"'], rfl, fun depth => ?_⟩
    rw [run?_quoted (by decide), if_pos rfl]
    rfl
  | case3 a b c d r ih =>
    obtain ⟨n, hu, h⟩ := Option.bind_eq_some_iff.mp h
    obtain ⟨⟨ps, rest⟩, hr, e⟩ := Option.bind_eq_some_iff.mp h
    cases e
    obtain ⟨taken, ht, hs⟩ := ih hr
    simp only [unit?, bind, Option.bind_eq_some_iff] at hu
    obtain ⟨_, ha, _, hb, _, hc, _, hd, _⟩ := hu
    refine ⟨'\\' :: 'u' :: a :: b :: c :: d :: taken, by rw [ht]; rfl, fun depth => ?_⟩
    calc
      _ = Scan.run? fieldStops ⟨depth, .ofQuote (some '"')⟩ (a :: b :: c :: d :: taken) :=
        run?_backslash ..
      _ = Scan.run? fieldStops ⟨depth, .ofQuote (some '"')⟩ taken := by
        rw [run?_hexDigit ha, run?_hexDigit hb, run?_hexDigit hc, run?_hexDigit hd]
      _ = _ := hs depth
  | case4 e r _ ih =>
    obtain ⟨c, hc, h⟩ := Option.bind_eq_some_iff.mp h
    obtain ⟨⟨ps, rest⟩, hr, e'⟩ := Option.bind_eq_some_iff.mp h
    cases e'
    obtain ⟨taken, ht, hs⟩ := ih hr
    exact ⟨'\\' :: e :: taken, by rw [ht]; rfl, fun depth => (run?_backslash ..).trans (hs depth)⟩
  | case5 => cases h
  | case6 c r hq _ _ hc ih =>
    obtain ⟨⟨ps, rest⟩, hr, e⟩ := Option.bind_eq_some_iff.mp h
    cases e
    obtain ⟨taken, ht, hs⟩ := ih hr
    refine ⟨c :: taken, by rw [ht]; rfl, fun depth => ?_⟩
    rw [run?_quoted fun e => hc (.inr e), if_neg hq]
    exact hs depth

-- How a lexeme changes the number of open brackets. A comma is always enclosed.
def Moves (depth depth' : Nat) : Lexeme → Prop
  | openArray | openObject   => depth' = depth + 1
  | closeArray | closeObject => depth = depth' + 1
  | comma                    => depth' = depth ∧ 0 < depth
  | _                        => depth' = depth

-- Whether a scan of a text up to the rest opens and closes the brackets of the lexeme read there.
def Tracks (text rest : List Char) (l : Lexeme) : Prop := ∃ taken, text = taken ++ rest ∧
  ∀ depth h h', l.Moves h h' → scan? (depth + h) taken = some ⟨depth + h', .outside⟩

theorem tracks_of_passes (hp : Passes text rest) (hl : ∀ h h', l.Moves h h' → h' = h) :
    Tracks text rest l := by
  obtain ⟨taken, ht, hn⟩ := hp
  refine ⟨taken, ht, fun depth h h' hm => ?_⟩
  rw [hl h h' hm]
  exact hn (depth + h)

theorem tracks_opening {c : Char} (hc : opens c = true)
    (hl : ∀ h h', l.Moves h h' → h' = h + 1) : Tracks (c :: rest) rest l := by
  refine ⟨[c], rfl, fun depth h h' hm => ?_⟩
  rw [hl h h' hm]
  exact scan?_opening hc (depth + h)

theorem tracks_closing {c : Char} (hc : closes c = true)
    (hl : ∀ h h', l.Moves h h' → h = h' + 1) : Tracks (c :: rest) rest l := by
  refine ⟨[c], rfl, fun depth h h' hm => ?_⟩
  rw [hl h h' hm]
  exact scan?_closing hc (depth + h')

theorem tracks_comma : Tracks (',' :: rest) rest comma := by
  refine ⟨[','], rfl, fun depth h h' hm => ?_⟩
  obtain ⟨rfl, hp⟩ := hm
  obtain ⟨n, rfl⟩ := Nat.exists_eq_succ_of_ne_zero (Nat.ne_of_gt hp)
  exact scan?_comma (depth + n)

-- A number is written with nothing but its digits and signs.
theorem takes_of_read?_num {n : Option Number} (h : read? text = some (num n, rest)) :
    Takes Numeral.isPart text rest := by
  unfold read? at h
  split at h
  case h_10 =>
    obtain ⟨_, _, e⟩ := Option.map_eq_some_iff.mp h
    cases e
  case h_11 =>
    obtain ⟨⟨m, _⟩, hm, e⟩ := Option.map_eq_some_iff.mp h
    cases e
    exact (takes_char (by decide) _).trans (Numeral.takes_of_read? hm)
  case h_12 =>
    obtain ⟨⟨m, _⟩, hm, e⟩ := Option.map_eq_some_iff.mp h
    cases e
    exact Numeral.takes_of_read? hm
  all_goals cases h

theorem tracks_of_read? (h : read? text = some (l, rest)) : Tracks text rest l := by
  have hword (word : List Char) (hw : word.all isPlain = true) : Passes (word ++ rest) rest :=
    ⟨word, rfl, neutral_of_isPlain hw⟩
  have hnum (n : Option Number) (hl : l = num n) : Tracks text rest l := by
    subst hl
    exact tracks_of_passes ((takes_of_read?_num h).passes (by decide)) fun _ _ hm => hm
  unfold read? at h
  split at h
  case h_1 | h_3 =>
    cases h
    exact tracks_opening rfl fun _ _ hm => hm
  case h_2 | h_4 =>
    cases h
    exact tracks_closing rfl fun _ _ hm => hm
  case h_5 =>
    cases h
    exact tracks_comma
  case h_6 =>
    cases h
    exact tracks_of_passes (hword [':'] (by decide)) fun _ _ hm => hm
  case h_7 =>
    cases h
    exact tracks_of_passes (hword "null".toList (by decide)) fun _ _ hm => hm
  case h_8 =>
    cases h
    exact tracks_of_passes (hword "true".toList (by decide)) fun _ _ hm => hm
  case h_9 =>
    cases h
    exact tracks_of_passes (hword "false".toList (by decide)) fun _ _ hm => hm
  case h_10 =>
    obtain ⟨⟨ps, _⟩, hp, e⟩ := Option.map_eq_some_iff.mp h
    cases e
    obtain ⟨taken, ht, hs⟩ := scan?_of_parts? hp
    refine tracks_of_passes ⟨'"' :: taken, by rw [ht]; rfl, fun depth => ?_⟩ fun _ _ hm => hm
    exact (run?_quote rfl).trans (hs depth)
  case h_11 | h_12 =>
    obtain ⟨⟨n, _⟩, _, e⟩ := Option.map_eq_some_iff.mp h
    cases e
    exact hnum n.value? rfl

end Lexeme

namespace Draft.State

variable {nesting : Nat} {s s' : State} {stack : List Open} {l : Lexeme} {ls : List Lexeme}
  {d : Draft} {text : List Char}

-- The number of containers that are open.
def height : State → Nat
  | value stack => stack.length
  | firstItem stack | firstKey stack | key _ stack | colon _ _ stack | afterItem _ stack
  | afterMember _ stack => stack.length + 1
  | done _ => 0

theorem height_place (d : Draft) (stack : List Open) : (place d stack).height = stack.length := by
  match stack with
  | [] | .array _ :: _ | .object _ _ :: _ => rfl

theorem moves_start (h : start nesting stack l = some s') : l.Moves stack.length s'.height := by
  unfold start at h
  split at h
  case h_5 | h_6 =>
    split at h <;> cases h
    rfl
  case h_7 => cases h
  all_goals
    cases h
    exact height_place _ _

theorem moves_next (h : next nesting s l = some s') : l.Moves s.height s'.height := by
  unfold next at h
  split at h
  case h_1 | h_3 => exact moves_start h
  case h_2 | h_4 | h_9 | h_11 =>
    cases h
    exact congrArg Nat.succ (height_place _ _).symm
  case h_12 => cases h
  all_goals
    cases h
    first | rfl | exact ⟨rfl, Nat.succ_pos _⟩

theorem scan?_of_run (ht : Lexeme.readAll? text = some ls) (h : run nesting s ls = some d)
    (depth : Nat) : scan? (depth + s.height) text = some ⟨depth, .outside⟩ := by
  fun_induction Lexeme.readAll? text generalizing s ls with
  | case1 text hd =>
    cases ht
    have hs : s.height = 0 := by
      cases s <;> first | rfl | cases h
    obtain ⟨taken, e, hn⟩ := passes_dropWhile (p := Lexeme.isSpace) (by decide) text
    rw [hd, List.append_nil] at e
    rw [hs, e]
    exact hn depth
  | case2 => cases ht
  | case3 text c r hd l rest hr _ ih =>
    obtain ⟨ls, hls, e⟩ := Option.map_eq_some_iff.mp ht
    cases e
    obtain ⟨s', hn, h⟩ := Option.bind_eq_some_iff.mp h
    obtain ⟨spaces, e, hp⟩ := passes_dropWhile (p := Lexeme.isSpace) (by decide) text
    obtain ⟨taken, e', hm⟩ := Lexeme.tracks_of_read? hr
    rw [e, hd, e', scan?_append (hp _), scan?_append (hm depth _ _ (moves_next hn))]
    exact ih hls h

end Draft.State

theorem Draft.neutral_of_read? {nesting : Nat} {text : List Char} {d : Draft}
    (h : Draft.read? nesting text = some d) : Neutral text := by
  obtain ⟨ls, hls, hr⟩ := Option.bind_eq_some_iff.mp h
  exact State.scan?_of_run hls hr

theorem Json.neutral_of_read? {text : List Char} {v : Json} (h : Json.read? text = some v) :
    Neutral text := by
  obtain ⟨d, hd, _⟩ := Option.bind_eq_some_iff.mp h
  exact Draft.neutral_of_read? hd

end JsonQuery
