namespace ScriptLens

structure Binary64 where
  bits : UInt64
deriving DecidableEq

namespace Binary64

def infinityBits : Nat := 0x7FF * Nat.pow 2 52

def infinity : Binary64 := ⟨infinityBits.toUInt64⟩

def zero : Binary64 := ⟨0⟩

def nan : Binary64 := ⟨0x7FF8000000000000⟩

def negate (x : Binary64) : Binary64 :=
  ⟨x.bits ^^^ 0x8000000000000000⟩

def magnitude (x : Binary64) : Nat :=
  x.bits.toNat % Nat.pow 2 63

def isNegative (x : Binary64) : Bool :=
  Nat.pow 2 63 ≤ x.bits.toNat

def isNaN (x : Binary64) : Bool :=
  infinityBits < x.magnitude

def isFinite (x : Binary64) : Bool :=
  x.magnitude < infinityBits

def mantissa (x : Binary64) : Nat :=
  if x.magnitude < Nat.pow 2 52 then x.magnitude
  else Nat.pow 2 52 + x.magnitude % Nat.pow 2 52

def exponent (x : Binary64) : Int :=
  ((max 1 (x.magnitude / Nat.pow 2 52) : Nat) : Int) - 1075

def divEven (num den : Nat) : Nat :=
  let q := num / den
  let r := num % den
  if 2 * r < den ∨ 2 * r = den ∧ q % 2 = 0 then q else q + 1

def scaleFor (num den : Nat) : Int :=
  let e : Int := num.log2 - den.log2 - 53
  let wide := if e < 0 then num * Nat.pow 2 (-e).toNat / den else num / (den * Nat.pow 2 e.toNat)
  max (-1074) (if wide < Nat.pow 2 53 then e else e + 1)

/-- The nearest value to a quotient, of two equally near the one with the even mantissa. -/
def ofRatio (num den : Nat) : Binary64 :=
  if num = 0 then zero
  else
    let e := scaleFor num den
    let m :=
      if e < 0 then divEven (num * Nat.pow 2 (-e).toNat) den
      else divEven num (den * Nat.pow 2 e.toNat)
    ⟨(min infinityBits ((e + 1074).toNat * Nat.pow 2 52 + m)).toUInt64⟩

/-- The nearest value to `digits * 10 ^ exponent`. Far beyond the range on either side the power is
not worked out. -/
def ofDecimal (digits : Nat) (exponent : Int) : Binary64 :=
  let length : Int := (Nat.toDigits 10 digits).length
  if digits = 0 ∨ length + exponent < -330 then zero
  else if 310 < length + exponent then infinity
  else if exponent < 0 then ofRatio digits (Nat.pow 10 (-exponent).toNat)
  else ofRatio (digits * Nat.pow 10 exponent.toNat) 1

def ofNat (n : Nat) : Binary64 :=
  ofRatio n 1

def increment (x : Binary64) : Binary64 :=
  ⟨(Float.ofBits x.bits + 1.0).toBits⟩

end Binary64

end ScriptLens
