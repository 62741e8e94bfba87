namespace JsonQuery

-- A nonempty run of decimal digits, leading zeros included.
def natural? (text : List Char) : Option Nat :=
  if !text.isEmpty && text.all Char.isDigit then some (Nat.ofDigitChars 10 text 0) else none

def dropPlus : List Char → List Char
  | '+' :: rest => rest
  | text        => text

-- Digits after an optional plus sign, if the number fits into 64 bits.
def unsigned64? (text : List Char) : Option Nat :=
  (natural? (dropPlus text)).filter (· < 0x10000000000000000)

-- Digits after an optional sign, if the number fits into 64 bits with a sign.
def signed64? : List Char → Option Int
  | '-' :: rest =>
    ((natural? rest).filter (· ≤ 0x8000000000000000)).map fun (n : Nat) => -(n : Int)
  | text =>
    ((natural? (dropPlus text)).filter (· < 0x8000000000000000)).map fun (n : Nat) => (n : Int)

theorem natural?_toDigits (n : Nat) : natural? (Nat.toDigits 10 n) = some n := by
  have h : (Nat.toDigits 10 n).all Char.isDigit = true :=
    List.all_eq_true.mpr fun _ hc => Nat.isDigit_of_mem_toDigits (by decide) (by decide) hc
  simp [natural?, h, Nat.toDigits_ne_nil, Nat.ofDigitChars_ten_toDigits]

theorem signed64?_bounds {text : List Char} {n : Int} (h : signed64? text = some n) :
    -0x8000000000000000 ≤ n ∧ n < 0x8000000000000000 := by
  unfold signed64? at h
  split at h <;>
    (simp only [Option.map_eq_some_iff, Option.filter_eq_some_iff, decide_eq_true_eq] at h
     obtain ⟨m, ⟨-, hm⟩, rfl⟩ := h
     omega)

end JsonQuery
