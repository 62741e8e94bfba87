import JsonQuery.Number.Numeral

namespace JsonQuery

-- The smallest parts of the text of a document. A number that is too large has no value, and a
-- string that holds half of a surrogate pair has none.
inductive Lexeme where
  | openArray
  | closeArray
  | openObject
  | closeObject
  | comma
  | colon
  | null
  | bool (b : Bool)
  | num (n : Option Number)
  | str (s : Option String)
  deriving DecidableEq

namespace Lexeme

-- What a string is written with: a character, or one unit of UTF-16 in hexadecimal.
inductive Part where
  | char (c : Char)
  | unit (n : Nat)

def hexDigit? (c : Char) : Option Nat :=
  if c.isDigit then some (c.toNat - 48)
  else if 'a' ≤ c ∧ c ≤ 'f' then some (c.toNat - 87)
  else if 'A' ≤ c ∧ c ≤ 'F' then some (c.toNat - 55)
  else none

def unit? (a b c d : Char) : Option Nat := do
  return ((← hexDigit? a) * 16 + (← hexDigit? b)) * 256 + (← hexDigit? c) * 16 + (← hexDigit? d)

def shortEscape? : Char → Option Char
  | '"'  => some '"'
  | '\\' => some '\\'
  | '/'  => some '/'
  | 'b'  => some '\x08'
  | 'f'  => some '\x0C'
  | 'n'  => some '\n'
  | 'r'  => some '\r'
  | 't'  => some '\t'
  | _    => none

-- The parts of a string up to its closing quote. Control characters have to be escaped.
def parts? : List Char → Option (List Part × List Char)
  | [] => none
  | '"' :: rest => some ([], rest)
  | '\\' :: 'u' :: a :: b :: c :: d :: rest => do
    let n ← unit? a b c d
    let (parts, rest) ← parts? rest
    return (.unit n :: parts, rest)
  | '\\' :: e :: rest => do
    let c ← shortEscape? e
    let (parts, rest) ← parts? rest
    return (.char c :: parts, rest)
  | c :: rest =>
    if c.toNat < 0x20 ∨ c = '\\' then none
    else do
      let (parts, rest) ← parts? rest
      return (.char c :: parts, rest)

def isHigh (n : Nat) : Bool := 0xD800 ≤ n && n < 0xDC00

def isLow (n : Nat) : Bool := 0xDC00 ≤ n && n < 0xE000

-- Two units that form a surrogate pair become one character. A lone half has no character.
def characters? : List Part → Option (List Char)
  | [] => some []
  | .char c :: rest => (characters? rest).map (c :: ·)
  | .unit h :: .unit l :: rest =>
    if isHigh h then
      if isLow l then
        (characters? rest).map (Char.ofNat ((h - 0xD800) * 0x400 + (l - 0xDC00) + 0x10000) :: ·)
      else none
    else if isLow h then none
    else (characters? (.unit l :: rest)).map (Char.ofNat h :: ·)
  | .unit n :: rest =>
    if isHigh n || isLow n then none else (characters? rest).map (Char.ofNat n :: ·)

def isSpace (c : Char) : Bool := c = ' ' || c = '\t' || c = '\n' || c = '\r'

theorem isSpace_cases {c : Char} (h : isSpace c = true) :
    c = ' ' ∨ c = '\t' ∨ c = '\n' ∨ c = '\r' := by
  simpa [isSpace, or_assoc] using h

-- The lexeme that a text starts with, and what comes after it.
def read? : List Char → Option (Lexeme × List Char)
  | '[' :: rest => some (openArray, rest)
  | ']' :: rest => some (closeArray, rest)
  | '{' :: rest => some (openObject, rest)
  | '}' :: rest => some (closeObject, rest)
  | ',' :: rest => some (comma, rest)
  | ':' :: rest => some (colon, rest)
  | 'n' :: 'u' :: 'l' :: 'l' :: rest => some (null, rest)
  | 't' :: 'r' :: 'u' :: 'e' :: rest => some (bool true, rest)
  | 'f' :: 'a' :: 'l' :: 's' :: 'e' :: rest => some (bool false, rest)
  | '"' :: rest =>
    (parts? rest).map fun (ps, rest) => (str ((characters? ps).map String.ofList), rest)
  | '-' :: rest => (Numeral.read? true rest).map fun (n, rest) => (num n.value?, rest)
  | rest => (Numeral.read? false rest).map fun (n, rest) => (num n.value?, rest)

theorem length_of_parts? {text rest : List Char} {ps : List Part}
    (h : parts? text = some (ps, rest)) : rest.length < text.length := by
  fun_induction parts? text generalizing ps rest with
  | case1 => cases h
  | case2 => simp_all
  | case3 a b c d r ih =>
    simp only [bind, Option.bind_eq_some_iff, pure, Option.some.injEq, Prod.mk.injEq] at h
    obtain ⟨_, -, ⟨_, _⟩, hp, -, rfl⟩ := h
    have := ih hp
    simp only [List.length_cons]
    omega
  | case4 e r _ ih =>
    simp only [bind, Option.bind_eq_some_iff, pure, Option.some.injEq, Prod.mk.injEq] at h
    obtain ⟨_, -, ⟨_, _⟩, hp, -, rfl⟩ := h
    have := ih hp
    simp only [List.length_cons]
    omega
  | case5 => cases h
  | case6 c r _ _ _ _ ih =>
    simp only [bind, Option.bind_eq_some_iff, pure, Option.some.injEq, Prod.mk.injEq] at h
    obtain ⟨⟨_, _⟩, hp, -, rfl⟩ := h
    have := ih hp
    simp only [List.length_cons]
    omega

theorem length_of_read? {text rest : List Char} {l : Lexeme} (h : read? text = some (l, rest)) :
    rest.length < text.length := by
  unfold read? at h
  split at h
  rotate_left 9
  case _ r =>
    simp only [Option.map_eq_some_iff, Prod.mk.injEq] at h
    obtain ⟨⟨_, _⟩, hp, -, rfl⟩ := h
    have := length_of_parts? hp
    simp only [List.length_cons]
    omega
  case _ r =>
    simp only [Option.map_eq_some_iff, Prod.mk.injEq] at h
    obtain ⟨⟨_, _⟩, hp, -, rfl⟩ := h
    have := Numeral.length_of_read? hp
    simp only [List.length_cons]
    omega
  case _ =>
    simp only [Option.map_eq_some_iff, Prod.mk.injEq] at h
    obtain ⟨⟨_, _⟩, hp, -, rfl⟩ := h
    exact Numeral.length_of_read? hp
  all_goals
    simp only [Option.some.injEq, Prod.mk.injEq] at h
    simp only [← h.2, List.length_cons]
    omega

-- All lexemes of a text. Spaces, tabs and line ends may stand between them.
def readAll? (text : List Char) : Option (List Lexeme) :=
  match hd : text.dropWhile isSpace with
  | [] => some []
  | c :: r =>
    match h : read? (c :: r) with
    | none => none
    | some (l, rest) =>
      have : rest.length < text.length := by
        have h₁ := length_of_read? h
        have h₂ := (List.dropWhile_sublist isSpace (l := text)).length_le
        rw [hd] at h₂
        omega
      (readAll? rest).map (l :: ·)
termination_by text.length

end Lexeme

end JsonQuery
