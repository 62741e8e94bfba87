import JsonQuery.Text.Blank

namespace JsonQuery

-- Why a text is no path. Every cause holds the part of the text that was not read any more.
inductive SyntaxError where
  -- Nothing that a segment can start with.
  | noSegment (rest : List Char)
  -- Something that does not continue the path.
  | leftOver (rest : List Char)
  | unclosedBracket (rest : List Char)
  -- A slice can have a step, but there is no notation for it.
  | secondColon (rest : List Char)
  -- What follows the question mark is neither a comparison nor a pattern.
  | unknownSelector (rest : List Char)
  | unclosedPattern (rest : List Char)
  | patternNotObject (rest : List Char)
  | unclosedConstruct (rest : List Char)
  | unclosedCall (rest : List Char)
  deriving DecidableEq

namespace SyntaxError

-- What a line of a report says is missing.
inductive Missing where
  | part (name : String)
  | char (c : Char)

-- The report of an error goes from the innermost part to the outermost. Every entry names the part
-- and the text at which it was expected.
def entries : SyntaxError → List (Missing × List Char)
  | noSegment rest         => [(.part "Many1", rest), (.part "Alt", rest)]
  | leftOver rest          => [(.part "Eof", rest)]
  | unclosedBracket rest   => [(.char ']', rest), (.part "closing bracket", rest)]
  | secondColon rest       => [(.part "Not", rest), (.part "slice with a step", rest)]
  | unknownSelector rest   => [(.char '{', rest), (.part "Alt", rest), (.part "selector", rest)]
  | unclosedPattern rest   => [(.char '}', rest.drop 1), (.part "selector", rest)]
  | patternNotObject rest  => [(.part "Verify", rest), (.part "selector", rest)]
  | unclosedConstruct rest => [(.char '}', rest), (.part "closing brace", rest)]
  | unclosedCall rest      => [(.char ')', rest)]

-- The number of bytes of a text in UTF-8.
def bytes (text : List Char) : Nat := text.foldl (fun n c => n + c.utf8Size) 0

-- One entry of the report: the line of the text that was read up to `rest`, and a mark under the
-- place. The mark is moved right by the bytes in front of it.
def entry (text : List Char) (number : Nat) (missing : Missing) (rest : List Char) : String :=
  let read := text.take (text.length - rest.length)
  let start := (read.reverse.takeWhile (· != '\n')).reverse
  let line := Text.trimEnd ((start ++ rest).takeWhile (· != '\n'))
  let title := number.repr ++ ": at line " ++ (read.count '\n' + 1).repr
  let picture :=
    String.ofList line ++ "\n" ++ String.ofList (List.replicate (bytes start) ' ') ++ "^\n"
  match missing with
  | .part name => title ++ ", in " ++ name ++ ":\n" ++ picture ++ "\n"
  | .char c =>
    let found :=
      match rest with
      | next :: _ => "found " ++ next.toString
      | []        => "got end of input"
    title ++ ":\n" ++ picture ++ "expected '" ++ c.toString ++ "', " ++ found ++ "\n\n"

def report (e : SyntaxError) (text : List Char) : String :=
  String.join (e.entries.mapIdx fun i (missing, rest) => entry text i missing rest)

end SyntaxError

end JsonQuery
