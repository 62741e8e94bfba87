namespace JsonQuery.Regex.Words

-- Choices among words are built as a tree, in which words share the states for what they have in
-- common at their start. A word that ends closes a part of its node, so that the words behind it
-- share nothing with those in front of it.

abbrev Word := List UInt8

-- What the states of a tree take up.
structure Measure where
  states    : Nat
  listBytes : Nat
  deriving DecidableEq

def Measure.add (a b : Measure) : Measure := ⟨a.states + b.states, a.listBytes + b.listBytes⟩

-- Leaves out the ends of words that stand in front of all other words, up to the last one.
def tidy : List Word → List Word
  | [] :: [] :: rest => tidy ([] :: rest)
  | words => words

-- The parts of a node: the words between those that end there.
def pieces : List Word → List (List Word)
  | [] => [[]]
  | [] :: rest => [] :: pieces rest
  | w :: rest =>
    match pieces rest with
    | p :: ps => (w :: p) :: ps
    | []      => [[w]]

-- The bytes that words start with.
def heads (words : List Word) : List UInt8 := (words.filterMap List.head?).eraseDups

-- The rests of the words that start with a byte.
def behind (b : UInt8) (words : List Word) : List Word :=
  words.filterMap fun
    | c :: rest => if c = b then some rest else none
    | []        => none

-- The measure of a tree. One byte is a state without a list. All words end after `fuel` bytes.
def measure (fuel : Nat) (words : List Word) : Measure :=
  match fuel with
  | 0 => ⟨0, 0⟩
  | fuel + 1 =>
    if words.all List.isEmpty then ⟨0, 0⟩
    else
      let all := pieces (tidy words)
      let used := all.filter (!·.isEmpty)
      let ofPiece (piece : List Word) : Measure :=
        let bytes := heads piece
        let lists := if bytes.length = 1 then 0 else 8 * bytes.length
        bytes.foldl (fun m b => m.add (measure fuel (behind b piece))) ⟨1, lists⟩
      used.foldl (fun m piece => m.add (ofPiece piece))
        ⟨1, 4 * (used.length + (all.length - 1))⟩

def ofWords (words : List Word) : Measure :=
  measure ((words.map List.length).foldl max 0 + 1) words

end JsonQuery.Regex.Words
