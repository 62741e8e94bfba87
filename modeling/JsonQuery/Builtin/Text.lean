import JsonQuery.Json.Printer
import JsonQuery.Text.Blank
import JsonQuery.Text.Case

namespace JsonQuery

namespace Text

-- Whether a text occurs in another one.
def occursIn (part : List Char) : List Char → Bool
  | []        => part.isEmpty
  | c :: rest => part.isPrefixOf (c :: rest) || occursIn part rest

-- Cuts a text at every occurrence of a nonempty separator, from left to right. `part` holds the
-- characters since the last cut, the last one first.
def cutFrom (separator : List Char) (part : List Char) : List Char → List (List Char)
  | [] => [part.reverse]
  | c :: rest =>
    if separator.isPrefixOf (c :: rest) then
      part.reverse :: cutFrom separator [] (rest.drop (separator.length - 1))
    else
      cutFrom separator (c :: part) rest
termination_by text => text.length

-- The parts of a text between the occurrences of a separator. The empty separator stands between
-- all characters.
def split (separator text : String) : List String :=
  if separator.isEmpty then text.toList.map Char.toString
  else (cutFrom separator.toList [] text.toList).map String.ofList

def join (separator : String) (parts : List String) : String := separator.intercalate parts

def contains (text part : String) : Bool := occursIn part.toList text.toList

def startsWith (text start : String) : Bool := start.toList.isPrefixOf text.toList

def endsWith (text ending : String) : Bool := ending.toList.isSuffixOf text.toList

def trimmed (text : String) : String := String.ofList (trim text.toList)

end Text

namespace Json

-- Changes a string. Anything else becomes null.
def mapText (f : String → String) : Json → Json
  | str s => str (f s)
  | _     => null

def testText (f : String → Bool) : Json → Json
  | str s => bool (f s)
  | _     => null

def split (separator : String) : Json → Json
  | str s => arr ((Text.split separator s).map str)
  | _     => null

-- Nulls are joined as empty strings. An array that holds a container cannot be joined.
def join (separator : String) : Json → Json
  | arr items =>
    if items.any isContainer then null
    else
      str <| Text.join separator <| items.map fun
        | null => ""
        | v    => v.display
  | _ => null

end Json

end JsonQuery
