import ScriptLens.Number.Binary64
import ScriptLens.Number.Digits
import ScriptLens.Number.Unsigned

namespace ScriptLens.NumberLiteral

def exponent? : List Char → Option Int
  | [] => some 0
  | c :: cs =>
    if c = 'e' ∨ c = 'E' then
      let (sign, cs) := match cs with
        | '-' :: cs => (-1, cs)
        | '+' :: cs => (1, cs)
        | cs => ((1 : Int), cs)
      match Digits.number? cs with
      | some (n, []) => some (sign * n)
      | _ => none
    else none

/-- Digits with at most one point among them and at least one digit, then an exponent. -/
def decimal? (cs : List Char) : Option Binary64 :=
  let (whole, rest) := Digits.split cs
  let (fraction, rest) := match rest with
    | '.' :: rest => Digits.split rest
    | rest => ([], rest)
  if whole.isEmpty && fraction.isEmpty then none
  else
    (exponent? rest).map fun e =>
      .ofDecimal (Digits.toNat (whole ++ fraction)) (e - (fraction.length : Nat))

def named? (cs : List Char) : Option Binary64 :=
  match String.ofList (cs.map Char.toLower) with
  | "inf" | "infinity" => some .infinity
  | "nan" => some .nan
  | _ => none

def unsigned? (cs : List Char) : Option Binary64 :=
  (decimal? cs).or (named? cs)

def signed? : List Char → Option Binary64
  | '-' :: cs => (unsigned? cs).map .negate
  | '+' :: cs => unsigned? cs
  | cs => unsigned? cs

def based? (base : Nat) (cs : List Char) : Option Binary64 :=
  (Unsigned.read base cs).toOption.map .ofNat

def plain? : List Char → Option Binary64
  | '0' :: 'x' :: cs | '0' :: 'X' :: cs => based? 16 cs
  | '0' :: 'o' :: cs | '0' :: 'O' :: cs => based? 8 cs
  | '0' :: 'b' :: cs | '0' :: 'B' :: cs => based? 2 cs
  | cs => signed? cs

def value? (text : String) : Option Binary64 :=
  plain? (text.toList.filter (· != '_'))

example : value? "-INF" = some ⟨0xFFF0000000000000⟩ := by decide +kernel

end ScriptLens.NumberLiteral
