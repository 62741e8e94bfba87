import JsonQuery.Regex.Property

namespace JsonQuery.Regex

-- The line ends that an expression knows. A line feed after a carriage return ends no line of its
-- own.
inductive LineEnd where
  | lf
  | crlf
  deriving DecidableEq

-- Conditions on the characters to both sides of a place.
inductive Look where
  | textStart
  | textEnd
  | lineStart (e : LineEnd)
  | lineEnd (e : LineEnd)
  | boundary (unicode : Bool)
  | notBoundary (unicode : Bool)
  | wordStart (unicode : Bool)
  | wordEnd (unicode : Bool)
  -- Only one side is looked at.
  | noWordBefore (unicode : Bool)
  | noWordAfter (unicode : Bool)
  deriving DecidableEq

-- Whether there is a character of words.
def isWord (unicode : Bool) (c : Option Char) : Bool := c.any (CharClass.words unicode).contains

def Look.holds (l : Look) (before after : Option Char) : Bool :=
  match l with
  | textStart => before.isNone
  | textEnd   => after.isNone
  | lineStart .lf => before.isNone || before == some '\n'
  | lineStart .crlf =>
    before.isNone || before == some '\n' || (before == some '\r' && after != some '\n')
  | lineEnd .lf => after.isNone || after == some '\n'
  | lineEnd .crlf =>
    after.isNone || after == some '\r' || (after == some '\n' && before != some '\r')
  | boundary u     => isWord u before != isWord u after
  | notBoundary u  => isWord u before == isWord u after
  | wordStart u    => !isWord u before && isWord u after
  | wordEnd u      => isWord u before && !isWord u after
  | noWordBefore u => !isWord u before
  | noWordAfter u  => !isWord u after

end Regex

-- A regular expression. Which of several matches is preferred is of no concern, but it tells
-- repetitions apart.
inductive Regex where
  | empty
  -- Several characters in a row.
  | literal (text : List Char)
  -- One character of a class. Those that are meant as classes of bytes are told apart.
  | char (a : Regex.CharClass) (bytes : Bool)
  | look (l : Regex.Look)
  | group (index : Nat) (a : Regex)
  | seq (parts : List Regex)
  | alt (choices : List Regex)
  -- At least `min` and at most `max` times in a row, where there may be no bound above.
  | times (a : Regex) (min : Nat) (max : Option Nat) (lazy : Bool)

namespace Regex

-- What matches nothing at all.
def never : Regex := char .empty true

mutual

-- Whether two expressions are written alike.
def same : Regex → Regex → Bool
  | empty,     empty     => true
  | literal s, literal t => s == t
  | char a x,  char b y  => a == b && x == y
  | look k,    look l    => k == l
  | group i a, group j b => i == j && same a b
  | seq as,    seq bs    => sameLists as bs
  | alt as,    alt bs    => sameLists as bs
  | times a m n l, times b m' n' l' => m == m' && n == n' && l == l' && same a b
  | _, _ => false

def sameLists : List Regex → List Regex → Bool
  | [],      []      => true
  | a :: as, b :: bs => same a b && sameLists as bs
  | _,       _       => false

end

mutual

theorem eq_of_same : (a b : Regex) → a.same b = true → a = b
  | empty,     b, h => by cases b <;> simp_all [same]
  | literal s, b, h => by cases b <;> simp_all [same]
  | char a x,  b, h => by cases b <;> simp_all [same]
  | look l,    b, h => by cases b <;> simp_all [same]
  | group i a, b, h => by
    cases b <;> simp only [same, Bool.and_eq_true, beq_iff_eq, Bool.false_eq_true] at h
    case group j b => rw [h.1, eq_of_same a b h.2]
  | seq as, b, h => by
    cases b <;> simp only [same, Bool.false_eq_true] at h
    case seq bs => rw [eq_of_sameLists as bs h]
  | alt as, b, h => by
    cases b <;> simp only [same, Bool.false_eq_true] at h
    case alt bs => rw [eq_of_sameLists as bs h]
  | times a m n l, b, h => by
    cases b <;> simp only [same, Bool.and_eq_true, beq_iff_eq, Bool.false_eq_true] at h
    case times b m' n' l' =>
      obtain ⟨⟨⟨hm, hn⟩, hl⟩, ha⟩ := h
      rw [hm, hn, hl, eq_of_same a b ha]

theorem eq_of_sameLists : (as bs : List Regex) → sameLists as bs = true → as = bs
  | [], bs, h => by cases bs <;> simp_all [sameLists]
  | a :: as, bs, h => by
    cases bs <;> simp only [sameLists, Bool.and_eq_true, Bool.false_eq_true] at h
    case cons b bs => rw [eq_of_same a b h.1, eq_of_sameLists as bs h.2]

end

end Regex

end JsonQuery
