import JsonQuery.Json.Basic

namespace JsonQuery.Json

-- The character that stands for a control character after a backslash, if it has one of its own.
def shortEscape (c : Char) : Option Char :=
  match c.toNat with
  | 0x08 => some 'b'
  | 0x09 => some 't'
  | 0x0A => some 'n'
  | 0x0C => some 'f'
  | 0x0D => some 'r'
  | _    => none

-- Only quotes, backslashes and the control characters below the blank are escaped.
def escape (c : Char) : List Char :=
  if c = '"' then ['\\', '"']
  else if c = '\\' then ['\\', '\\']
  else if c.toNat < 0x20 then
    match shortEscape c with
    | some e => ['\\', e]
    | none   => ['\\', 'u', '0', '0', Nat.digitChar (c.toNat / 16), Nat.digitChar (c.toNat % 16)]
  else [c]

-- A string between double quotes.
def quoted (s : String) : String :=
  s.toList.foldl (fun out c => (escape c).foldl String.push out) "\"" |>.push '"'

mutual

-- Adds the compact text of a value to the end of `out`.
def write (out : String) : Json → String
  | null       => out ++ "null"
  | bool true  => out ++ "true"
  | bool false => out ++ "false"
  | num n      => out ++ String.ofList n.text
  | str s      => out ++ quoted s
  | arr []     => out ++ "[]"
  | arr (x :: rest) => (writeItems (write (out.push '[') x) rest).push ']'
  | obj []     => out ++ "\x7b\x7d"
  | obj ((k, x) :: rest) =>
    (writeMembers (write ((out.push '{' ++ quoted k).push ':') x) rest).push '}'

def writeItems (out : String) : List Json → String
  | []        => out
  | x :: rest => writeItems (write (out.push ',') x) rest

def writeMembers (out : String) : List (String × Json) → String
  | []             => out
  | (k, x) :: rest => writeMembers (write ((out.push ',' ++ quoted k).push ':') x) rest

end

-- The compact text of a value.
def render (v : Json) : String := write "" v

-- A string stands for itself, every other value for its compact text.
def display : Json → String
  | str s => s
  | v     => v.render

mutual

theorem write_eq (out : String) : (v : Json) → write out v = out ++ write "" v
  | null | bool true | bool false | num _ | str _ => by simp [write]
  | arr [] | obj [] => by simp [write]
  | arr (x :: rest) => by
    rw [write, write, write_eq (out.push '['), write_eq ("".push '['), writeItems_eq (_ ++ _),
      writeItems_eq (("".push '[') ++ _)]
    apply String.toList_injective
    simp
  | obj ((k, x) :: rest) => by
    rw [write, write, write_eq ((out.push _ ++ _).push _), write_eq (("".push _ ++ _).push _),
      writeMembers_eq (_ ++ _), writeMembers_eq ((("".push '{' ++ quoted k).push ':') ++ _)]
    apply String.toList_injective
    simp

theorem writeItems_eq (out : String) : (xs : List Json) →
    writeItems out xs = out ++ writeItems "" xs
  | [] => by simp [writeItems]
  | x :: rest => by
    rw [writeItems, writeItems, write_eq (out.push _), write_eq ("".push _), writeItems_eq (_ ++ _),
      writeItems_eq (("".push ',') ++ _)]
    apply String.toList_injective
    simp

theorem writeMembers_eq (out : String) : (xs : List (String × Json)) →
    writeMembers out xs = out ++ writeMembers "" xs
  | [] => by simp [writeMembers]
  | (k, x) :: rest => by
    rw [writeMembers, writeMembers, write_eq ((out.push _ ++ _).push _),
      write_eq (("".push _ ++ _).push _), writeMembers_eq (_ ++ _),
      writeMembers_eq ((("".push ',' ++ quoted k).push ':') ++ _)]
    apply String.toList_injective
    simp

end

theorem toList_quoted (s : String) :
    (quoted s).toList = '"' :: s.toList.flatMap escape ++ ['"'] := by
  have h : ∀ (cs : List Char) (out : String),
      (cs.foldl String.push out).toList = out.toList ++ cs := by
    intro cs
    induction cs with
    | nil => simp
    | cons c cs ih => intro out; simp [ih]
  have hs : ∀ (cs : List Char) (out : String),
      (cs.foldl (fun out c => (escape c).foldl String.push out) out).toList
        = out.toList ++ cs.flatMap escape := by
    intro cs
    induction cs with
    | nil => simp
    | cons c cs ih => intro out; simp [ih, h]
  simp [quoted, hs]

end JsonQuery.Json
