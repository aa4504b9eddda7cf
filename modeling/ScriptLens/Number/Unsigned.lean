namespace ScriptLens

inductive UnsignedError where
  | empty
  | badDigit
  | tooLarge
deriving DecidableEq

def UnsignedError.message : UnsignedError → String
  | empty => "cannot parse integer from empty string"
  | badDigit => "invalid digit found in string"
  | tooLarge => "number too large to fit in target type"

namespace Unsigned

def digit? (base : Nat) (c : Char) : Option Nat :=
  let value? :=
    if '0' ≤ c ∧ c ≤ '9' then some (c.toNat - '0'.toNat)
    else if 'a' ≤ c ∧ c ≤ 'z' then some (c.toNat - 'a'.toNat + 10)
    else if 'A' ≤ c ∧ c ≤ 'Z' then some (c.toNat - 'A'.toNat + 10)
    else none
  value?.filter (· < base)

def readDigits (base : Nat) (acc : Nat) : List Char → Except UnsignedError Nat
  | [] => .ok acc
  | c :: cs =>
    match digit? base c with
    | none => .error .badDigit
    | some d =>
      let acc := acc * base + d
      if acc < UInt64.size then readDigits base acc cs else .error .tooLarge

def read (base : Nat) : List Char → Except UnsignedError Nat
  | [] => .error .empty
  | ['+'] => .error .badDigit
  | '+' :: digits => readDigits base 0 digits
  | digits => readDigits base 0 digits

end Unsigned

end ScriptLens
