import JsonQuery.Regex.Basic
import JsonQuery.Regex.Positions

namespace JsonQuery.Regex

-- A regular expression over one text. In place of its classes and looks stand the positions of the
-- text at which they hold.
inductive Track where
  | free
  | step (places : Positions)
  | stay (places : Positions)
  | seq (a b : Track)
  | alt (a b : Track)
  | times (a : Track) (min : Nat) (max : Option Nat)

namespace Track

-- The positions where a match ends that starts at one of the given positions. In a text of `n`
-- characters, at most `n` rounds of a repetition move on.
def ends (n : Nat) : Track → Positions → Positions
  | free,     s => s
  | step p,   s => Positions.advance (s &&& p)
  | stay p,   s => s &&& p
  | seq a b,  s => b.ends n (a.ends n s)
  | alt a b,  s => a.ends n s ||| b.ends n s
  | times a min max, s =>
    Positions.upTo (a.ends n) (max.elim n (· - min)) (Positions.iterate (a.ends n) min s)

-- The positions of a text with a character that passes a test.
def places (text : Array Char) (p : Char → Bool) : Positions :=
  Positions.filter (fun i => text[i]?.any p) text.size

mutual

-- Lays an expression over a text.
def of (text : Array Char) : Regex → Track
  | .empty     => free
  | .literal s => s.foldr (fun c t => seq (step (places text (· == c))) t) free
  | .char a _  => step (places text a.contains)
  | .look l    =>
    let before (i : Nat) := if i = 0 then none else text[i - 1]?
    stay (Positions.filter (fun i => l.holds (before i) text[i]?) (text.size + 1))
  | .group _ a => of text a
  | .seq parts => ofParts text parts
  | .alt choices => ofChoices text choices
  | .times a min max _ => times (of text a) min max

def ofParts (text : Array Char) : List Regex → Track
  | []     => free
  | a :: r => seq (of text a) (ofParts text r)

def ofChoices (text : Array Char) : List Regex → Track
  | []     => step 0
  | a :: r => alt (of text a) (ofChoices text r)

end

end Track

-- Whether any part of a text matches.
def test (r : Regex) (text : String) : Bool :=
  let text := text.toList.toArray
  (Track.of text r).ends text.size (Positions.below (text.size + 1)) != 0

end JsonQuery.Regex
