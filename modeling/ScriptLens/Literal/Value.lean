import ScriptLens.Number.Shortest
import ScriptLens.Number.Unsigned

namespace ScriptLens

inductive Literal where
  | string (s : String)
  | number (x : Binary64)
deriving DecidableEq

namespace Binary64

def smallWhole? (x : Binary64) : Option Nat :=
  let whole? :=
    if 0 ≤ x.exponent then some (x.mantissa * Nat.pow 2 x.exponent.toNat)
    else if x.mantissa % Nat.pow 2 (-x.exponent).toNat = 0 then
      some (x.mantissa / Nat.pow 2 (-x.exponent).toNat)
    else none
  if x.isFinite then whole?.filter (· < Nat.pow 10 15) else none

/-- Small whole numbers are written as integers, so that zero has no sign. All others have their
shortest digits, written out in full. -/
def text (x : Binary64) : List Char :=
  let sign := if x.isNegative then ['-'] else []
  match x.smallWhole? with
  | some 0 => ['0']
  | some n => sign ++ Nat.toDigits 10 n
  | none =>
    if x.isNaN then "NaN".toList
    else if x.isFinite then sign ++ x.shortest.positional
    else sign ++ "inf".toList

end Binary64

def Literal.text : Literal → String
  | string s => s
  | number x => .ofList x.text

end ScriptLens
