namespace JsonQuery.Quoted

-- The characters with a backslash in front in a string between double quotes.
def double? : Char → Option Char
  | '\\' => some '\\'
  | '"'  => some '"'
  | '/'  => some '/'
  | 'n'  => some '\n'
  | 'r'  => some '\r'
  | 't'  => some '\t'
  | _    => none

-- The same between single quotes.
def single? : Char → Option Char
  | '\\' => some '\\'
  | '\'' => some '\''
  | _    => none

-- Reads up to the closing quote. Line ends and other control characters stand for themselves.
def contents? (quote : Char) (escape? : Char → Option Char) :
    List Char → Option (List Char × List Char)
  | [] => none
  | '\\' :: e :: rest => do
    let c ← escape? e
    let (content, rest) ← contents? quote escape? rest
    return (c :: content, rest)
  | c :: rest =>
    if c = quote then some ([], rest)
    else if c = '\\' then none
    else do
      let (content, rest) ← contents? quote escape? rest
      return (c :: content, rest)

-- Reads a string between quotes of either kind.
def read? : List Char → Option (String × List Char)
  | '"' :: rest  => (contents? '"' double? rest).map fun (c, rest) => (String.ofList c, rest)
  | '\'' :: rest => (contents? '\'' single? rest).map fun (c, rest) => (String.ofList c, rest)
  | _ => none

theorem length_of_contents? {quote : Char} {escape? : Char → Option Char}
    {text rest content : List Char} (h : contents? quote escape? text = some (content, rest)) :
    rest.length < text.length := by
  fun_induction contents? quote escape? text generalizing content rest with
  | case1 => cases h
  | case2 e r ih =>
    simp only [bind, Option.bind_eq_some_iff, pure, Option.some.injEq, Prod.mk.injEq] at h
    obtain ⟨_, -, ⟨_, _⟩, hp, -, rfl⟩ := h
    have := ih hp
    simp only [List.length_cons]
    omega
  | case3 => simp_all
  | case4 => cases h
  | case5 c r _ _ _ ih =>
    simp only [bind, Option.bind_eq_some_iff, pure, Option.some.injEq, Prod.mk.injEq] at h
    obtain ⟨⟨_, _⟩, hp, -, rfl⟩ := h
    have := ih hp
    simp only [List.length_cons]
    omega

theorem length_of_read? {text rest : List Char} {s : String} (h : read? text = some (s, rest)) :
    rest.length < text.length := by
  unfold read? at h
  split at h
  case _ r | _ r =>
    simp only [Option.map_eq_some_iff, Prod.mk.injEq] at h
    obtain ⟨⟨_, _⟩, hp, -, rfl⟩ := h
    have := length_of_contents? hp
    simp only [List.length_cons]
    omega
  case _ => cases h

end JsonQuery.Quoted
