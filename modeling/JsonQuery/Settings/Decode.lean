import JsonQuery.Json.Reader
import JsonQuery.Settings.Encode

namespace JsonQuery

namespace Draft

-- Reads the text of a setting. A field that is skipped may hold containers to any depth, and there
-- are no more of them than characters.
def ofSetting? (text : List Char) : Option Draft := read? text.length text

def toBool? : Draft → Option Bool
  | bool b => some b
  | _      => none

def toText? : Draft → Option String
  | str s => s
  | _     => none

-- A 64 bit integer without a sign.
def toSize? : Draft → Option Nat
  | num (some (.int n)) => if 0 ≤ n then some n.toNat else none
  | _ => none

-- A 64 bit integer with a sign, or null.
def toBound? : Draft → Option (Option Int)
  | null         => some none
  | num (some n) => n.toInt64?.map some
  | _            => none

-- The name of a variant, alone or with the null that stands for its missing content.
def variant? : Draft → Option String
  | str s                 => s
  | obj [(some key, null)] => some key
  | _                     => none

-- The values of the fields of a record, as far as they are given. In an object unknown fields are
-- skipped, but a known one may not be repeated. An array has the values in the order of the fields.
def record? (fields : List String) : Draft → Option (List (Option Draft))
  | obj members =>
    if members.any (·.1.isNone) then none
    else
      fields.mapM fun field =>
        match members.filter (·.1 == some field) with
        | []       => some none
        | [(_, v)] => some (some v)
        | _        => none
  | arr items =>
    if fields.length < items.length then none
    else some (items.map some ++ List.replicate (fields.length - items.length) none)
  | _ => none

-- A field that takes its default if it is not given.
def field? {α : Type} (read : Draft → Option α) (default : α) : Option Draft → Option α
  | none   => some default
  | some v => read v

end Draft

def Separator.ofDraft? : Draft → Option Separator
  | .obj [(some "Custom", v)] =>
    match v.toText?.map String.toList with
    | some [c] => some (.custom c)
    | _        => none
  | v =>
    match v.variant? with
    | some "Dot"   => some .dot
    | some "Slash" => some .slash
    | _            => none

def Options.ofDraft? (v : Draft) : Option Options := do
  let d := Options.default
  let fields := ["max_depth", "max_padding", "strict", "only_first", "create_missing",
    "tolerant_delete", "separator"]
  match ← v.record? fields with
  | [depth, padding, strict, first, create, tolerant, separator] =>
    return {
      maxDepth       := ← Draft.field? Draft.toSize? d.maxDepth depth
      maxPadding     := ← Draft.field? Draft.toSize? d.maxPadding padding
      strict         := ← Draft.field? Draft.toBool? d.strict strict
      onlyFirst      := ← Draft.field? Draft.toBool? d.onlyFirst first
      createMissing  := ← Draft.field? Draft.toBool? d.createMissing create
      tolerantDelete := ← Draft.field? Draft.toBool? d.tolerantDelete tolerant
      separator      := ← Draft.field? Separator.ofDraft? d.separator separator }
  | _ => none

def SearchOptions.ofDraft? (v : Draft) : Option SearchOptions := do
  let d := SearchOptions.default
  let fields := ["mode", "case_sensitive", "search_keys", "search_values", "max_depth"]
  match ← v.record? fields with
  | [mode, caseSensitive, keys, values, depth] =>
    return {
      mode          := ← Draft.field? (fun v => v.variant?.bind SearchMode.ofWord?) d.mode mode
      caseSensitive := ← Draft.field? Draft.toBool? d.caseSensitive caseSensitive
      keys          := ← Draft.field? Draft.toBool? d.keys keys
      values        := ← Draft.field? Draft.toBool? d.values values
      maxDepth      := ← Draft.field? Draft.toSize? d.maxDepth depth }
  | _ => none

def Operation.ofDraft? (v : Draft) : Option Operation := v.variant?.bind Operation.ofWord?

def Comparison.ofDraft? (v : Draft) : Option Comparison :=
  v.variant?.bind fun name => Comparison.all.find? (·.variant == name)

-- A slice has all three bounds if it is given as an array.
def Slice.ofDraft? (v : Draft) : Option Slice := do
  let fields ← v.record? ["start", "stop", "step"]
  let missing := fields.any Option.isNone
  match v, fields with
  | .arr _, _ => if missing then none else pure ()
  | _, _ => pure ()
  match fields with
  | [start, stop, step] =>
    return {
      start := ← Draft.field? Draft.toBound? none start
      stop  := ← Draft.field? Draft.toBound? none stop
      step  := ← Draft.field? Draft.toBound? none step }
  | _ => none

def Step.ofDraft? : Draft → Option Step
  | .obj [(some "Key", v)]   => v.toText?.map .key
  | .obj [(some "Index", v)] => v.toSize?.map .index
  | _ => none

end JsonQuery
