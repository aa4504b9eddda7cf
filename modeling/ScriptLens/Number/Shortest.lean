import ScriptLens.Number.Binary64

namespace ScriptLens

structure Decimal where
  digits : Nat
  exponent : Int
deriving DecidableEq

namespace Decimal

def positional (d : Decimal) : List Char :=
  let ds := Nat.toDigits 10 d.digits
  let places := (-d.exponent).toNat
  if places = 0 then ds ++ List.replicate d.exponent.toNat '0'
  else if places < ds.length then
    ds.take (ds.length - places) ++ '.' :: ds.drop (ds.length - places)
  else '0' :: '.' :: List.replicate (places - ds.length) '0' ++ ds

end Decimal

namespace Binary64

/-- The decimals that read back as a value: a value and the ends of its interval, as multiples of
`unit / den`. The ends belong to it if they round to an even mantissa. -/
structure Interval where
  low : Nat
  value : Nat
  high : Nat
  den : Nat
  closed : Bool

def interval (x : Binary64) : Interval :=
  let m := x.mantissa
  let unit := Nat.pow 2 (x.exponent - 2).toNat
  let below := if m = Nat.pow 2 52 ∧ -1074 < x.exponent then 1 else 2
  { low := (4 * m - below) * unit
    value := 4 * m * unit
    high := (4 * m + 2) * unit
    den := Nat.pow 2 (2 - x.exponent).toNat
    closed := m % 2 = 0 }

namespace Interval

def magnitude (i : Interval) : Int :=
  if i.den ≤ i.value then (Nat.toDigits 10 (i.value / i.den)).length
  else
    let zeros := (List.range 400).find? fun j => decide (i.den ≤ i.value * Nat.pow 10 (j + 1))
    (-((zeros.getD 0 : Nat) : Int))

def onGrid? (i : Interval) (g : Int) : Option Nat :=
  let step := i.den * Nat.pow 10 g.toNat
  let scale := Nat.pow 10 (-g).toNat
  let holds (c : Nat) : Bool :=
    if i.closed then i.low * scale ≤ c * step && c * step ≤ i.high * scale
    else i.low * scale < c * step && c * step < i.high * scale
  let v := i.value * scale
  let f := v / step
  match holds f, holds (f + 1) with
  | true, true => some (if v - f * step < (f + 1) * step - v then f else f + 1)
  | true, false => some f
  | false, true => some (f + 1)
  | false, false => none

end Interval

/-- The shortest decimal of a finite value, sign apart. Seventeen digits always suffice. -/
def shortest (x : Binary64) : Decimal :=
  if x.mantissa = 0 then ⟨0, 0⟩
  else
    let i := x.interval
    let p := i.magnitude
    let found := (List.range 17).findSome? fun k =>
      (i.onGrid? (p - (k + 1 : Nat))).map fun c =>
        if c = Nat.pow 10 (k + 1) then ⟨1, p⟩ else ⟨c, p - (k + 1 : Nat)⟩
    found.getD ⟨0, 0⟩

end Binary64

end ScriptLens
