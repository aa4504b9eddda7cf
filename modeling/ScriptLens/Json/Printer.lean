import ScriptLens.Json.Basic

namespace ScriptLens

namespace Numeral

def digitChar (d : Fin 10) : Char :=
  Nat.digitChar d.val

def exponentChars : Int → List Char
  | .ofNat n => 'e' :: Nat.toDigits 10 n
  | .negSucc n => 'e' :: '-' :: Nat.toDigits 10 (n + 1)

def chars (n : Numeral) : List Char :=
  (if n.negative then ['-'] else []) ++ Nat.toDigits 10 n.whole
    ++ (if n.fraction.isEmpty then [] else '.' :: n.fraction.map digitChar)
    ++ (n.exponent.map exponentChars).getD []

end Numeral

namespace Json

def escape (c : Char) : List Char :=
  if c = '"' then ['\\', '"']
  else if c = '\\' then ['\\', '\\']
  else if c = '\x08' then ['\\', 'b']
  else if c = '\t' then ['\\', 't']
  else if c = '\n' then ['\\', 'n']
  else if c = '\x0c' then ['\\', 'f']
  else if c = '\r' then ['\\', 'r']
  else if c.toNat < 0x20 then
    ['\\', 'u', '0', '0', Nat.digitChar (c.toNat / 16), Nat.digitChar (c.toNat % 16)]
  else [c]

def quoted (s : String) : List Char :=
  '"' :: s.toList.flatMap escape ++ ['"']

def unreadableChars : List Char :=
  "\"\\ud800\"".toList

mutual

def compactChars : Json → List Char
  | null => "null".toList
  | bool true => "true".toList
  | bool false => "false".toList
  | number n => n.chars
  | string s => quoted s
  | unreadable => unreadableChars
  | array [] => "[]".toList
  | array (j :: rest) => '[' :: j.compactChars ++ compactItems rest
  | object [] => ['\x7b', '\x7d']
  | object ((key, j) :: rest) =>
    '\x7b' :: quoted key ++ ':' :: j.compactChars ++ compactMembers rest

def compactItems : List Json → List Char
  | [] => [']']
  | j :: rest => ',' :: j.compactChars ++ compactItems rest

def compactMembers : List (String × Json) → List Char
  | [] => ['\x7d']
  | (key, j) :: rest => ',' :: quoted key ++ ':' :: j.compactChars ++ compactMembers rest

end

def newline (level : Nat) : List Char :=
  '\n' :: List.replicate (2 * level) ' '

mutual

def indentedChars (level : Nat) : Json → List Char
  | array (j :: rest) =>
    '[' :: newline (level + 1) ++ j.indentedChars (level + 1) ++ indentedItems level rest
  | object ((key, j) :: rest) =>
    '\x7b' :: newline (level + 1) ++ quoted key ++ ':' :: ' ' :: j.indentedChars (level + 1)
      ++ indentedMembers level rest
  | j => j.compactChars

def indentedItems (level : Nat) : List Json → List Char
  | [] => newline level ++ [']']
  | j :: rest =>
    ',' :: newline (level + 1) ++ j.indentedChars (level + 1) ++ indentedItems level rest

def indentedMembers (level : Nat) : List (String × Json) → List Char
  | [] => newline level ++ ['\x7d']
  | (key, j) :: rest =>
    ',' :: newline (level + 1) ++ quoted key ++ ':' :: ' ' :: j.indentedChars (level + 1)
      ++ indentedMembers level rest

end

def compact (j : Json) : String :=
  .ofList j.compactChars

def indented (j : Json) : String :=
  .ofList (j.indentedChars 0)

end Json

end ScriptLens
