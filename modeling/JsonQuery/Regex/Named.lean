import JsonQuery.Regex.Break
import JsonQuery.Text.Age

namespace JsonQuery.Regex.CharClass

-- The ranges of the classes of ASCII characters that have a name of their own.
def asciiRanges? (name : String) : Option (List (Nat × Nat)) :=
  match name with
  | "alnum"  => some [(0x30, 0x39), (0x41, 0x5A), (0x61, 0x7A)]
  | "alpha"  => some [(0x41, 0x5A), (0x61, 0x7A)]
  | "ascii"  => some [(0, 0x7F)]
  | "blank"  => some [(0x9, 0x9), (0x20, 0x20)]
  | "cntrl"  => some [(0, 0x1F), (0x7F, 0x7F)]
  | "digit"  => some [(0x30, 0x39)]
  | "graph"  => some [(0x21, 0x7E)]
  | "lower"  => some [(0x61, 0x7A)]
  | "print"  => some [(0x20, 0x7E)]
  | "punct"  => some [(0x21, 0x2F), (0x3A, 0x40), (0x5B, 0x60), (0x7B, 0x7E)]
  | "space"  => some [(0x9, 0xD), (0x20, 0x20)]
  | "upper"  => some [(0x41, 0x5A)]
  | "word"   => some [(0x30, 0x39), (0x41, 0x5A), (0x5F, 0x5F), (0x61, 0x7A)]
  | "xdigit" => some [(0x30, 0x39), (0x41, 0x46), (0x61, 0x66)]
  | _        => none

-- Names of properties are compared without regard to case, blanks, underscores and hyphens and
-- without a prefix `is`. One abbreviation starts with these two letters by chance.
def looseName (name : List Char) : String :=
  let lower := name.map Char.toLower
  let letters (text : List Char) := text.filter fun c =>
    c.toNat < 0x80 && c != ' ' && c != '_' && c != '-'
  match lower with
  | 'i' :: 's' :: rest => if letters rest = ['c'] then "isc" else String.ofList (letters rest)
  | _ => String.ofList (letters lower)

-- The classes of the properties that are put together from others.
def compound? (name : String) : Option CharClass :=
  match name with
  | "alpha" | "alphabetic" => some alphabetic
  | "wspace" | "whitespace" | "space" => some blanks
  | "cased" => some cased
  | "ci" | "caseignorable" => some caseIgnorable
  | "lower" | "lowercase" => some lowercase
  | "upper" | "uppercase" => some uppercase
  | "math" => some math
  | "ids" | "idstart" => some idStart
  | "idc" | "idcontinue" => some idContinue
  | "xids" | "xidstart" => some xidStart
  | "xidc" | "xidcontinue" => some xidContinue
  | "grext" | "graphemeextend" => some graphemeExtend
  | "grbase" | "graphemebase" => some graphemeBase
  | "oalpha" | "otheralphabetic" => some otherAlphabetic
  | "olower" | "otherlowercase" => some otherLowercase
  | "oupper" | "otheruppercase" => some otherUppercase
  | "omath" | "othermath" => some otherMath
  | "oids" | "otheridstart" => some otherIdStart
  | "oidc" | "otheridcontinue" => some otherIdContinue
  | "ogrext" | "othergraphemeextend" => some otherGraphemeExtend
  | "cwl" | "changeswhenlowercased" => some changingInLower
  | "cwu" | "changeswhenuppercased" => some changingInUpper
  | "cwt" | "changeswhentitlecased" => some changingInTitle
  | "cwcm" | "changeswhencasemapped" => some changingInCase
  | "cwcf" | "changeswhencasefolded" => some changingInFold
  | _ => none

def property? (name : String) : Option CharClass := (compound? name).or (listed? name)

def category? (name : String) : Option CharClass :=
  match name with
  | "any"      => some all
  | "ascii"    => some ascii
  | "assigned" => some unassigned.negate
  | name => (Text.categories.find? (·.1.contains name)).map (categories ·.2)

def scriptCode? (name : String) : Option String :=
  (Text.scripts.find? (·.2.contains name)).map (·.1)

def script? (name : String) : Option CharClass := (scriptCode? name).map script

-- The characters that are used in a script. The scripts that share a character are listed together,
-- separated by spaces. Where they are, the own script of the character does not count.
def usedIn (code : String) : CharClass :=
  let (sharing, others) := Text.sharedScripts.partition fun s => (s.1.splitOn " ").contains code
  let rangesOf (entries : List (String × List (Nat × Nat))) :=
    entries.foldl (fun a s => a.union (ofRanges s.2)) empty
  (script code).diff (rangesOf others) |>.union (rangesOf sharing)

-- The characters that a version of Unicode has, including those of the versions before it. The
-- numbers of a version are separated by a full stop, or not at all behind a letter.
def version? (name : String) : Option CharClass :=
  let named (v : String × String) : Bool :=
    v.1 = name || "v" ++ String.ofList (v.1.toList.filter Char.isDigit) = name
  match Text.versions.span (!named ·) with
  | (_, [])              => none
  | (older, version :: _) => some (ofRanges (Text.ageRanges ((older ++ [version]).map (·.2))))

def break? (breaks : Breaks) (name : String) : Option CharClass :=
  (breaks.find? (·.1.contains name)).map (·.2)

-- The class of a property, a general category or a script, in this order.
def named? (name : List Char) : Option CharClass :=
  let name := looseName name
  (property? name).or ((category? name).or (script? name))

-- The class of a value of one of the properties with values.
def valued? (property value : List Char) : Option CharClass :=
  let value := looseName value
  match looseName property with
  | "gc" | "generalcategory"        => category? value
  | "sc" | "script"                 => script? value
  | "scx" | "scriptextensions"      => (scriptCode? value).map usedIn
  | "age"                           => version? value
  | "gcb" | "graphemeclusterbreak"  => break? graphemeBreaks value
  | "wb" | "wordbreak"              => break? wordBreaks value
  | "sb" | "sentencebreak"          => break? sentenceBreaks value
  | _                               => none

end JsonQuery.Regex.CharClass
