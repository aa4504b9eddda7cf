import ScriptLens.Text.Blank

namespace ScriptLens.Text

def afterLastBreak (cs : List Char) : List Char :=
  (cs.reverse.takeWhile (· != '\n')).reverse

/-- The last line of a trimmed text, itself trimmed: how a chain of calls spread over several lines
is named. -/
def finalLine (cs : List Char) : List Char :=
  trim (afterLastBreak (trim cs))

def stripQuotes (cs : List Char) : List Char :=
  cs.tail.dropLast

def splitOn (separator : Char) : List Char → List (List Char)
  | [] => [[]]
  | c :: cs =>
    if c = separator then [] :: splitOn separator cs
    else
      match splitOn separator cs with
      | [] => [[c]]
      | piece :: rest => (c :: piece) :: rest

/-- The pieces between line feeds. A line feed at the very end opens no further piece. -/
def splitLines : List Char → List (List Char)
  | [] => []
  | '\n' :: cs => [] :: splitLines cs
  | c :: cs =>
    match splitLines cs with
    | [] => [[c]]
    | line :: rest => (c :: line) :: rest

def dropReturn (line : List Char) : List Char :=
  if line.getLast? = some '\r' then line.dropLast else line

def lines (cs : List Char) : List (List Char) :=
  (splitLines cs).map dropReturn

end ScriptLens.Text
