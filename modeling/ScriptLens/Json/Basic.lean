import ScriptLens.Number.Binary64
import ScriptLens.Number.Digits

namespace ScriptLens

structure Numeral where
  negative : Bool
  whole : Nat
  fraction : List (Fin 10)
  exponent : Option Int
deriving DecidableEq

namespace Numeral

def ofNat (n : Nat) : Numeral :=
  ⟨false, n, [], none⟩

/-- The value of an unsigned integer. A sign, a fraction or an exponent, whatever its digits, makes
a number something else. -/
def toNat? (n : Numeral) : Option Nat :=
  if n.negative || !n.fraction.isEmpty || n.exponent.isSome then none else some n.whole

def isFinite (n : Numeral) : Bool :=
  let digits := Digits.append n.whole n.fraction
  (Binary64.ofDecimal digits (n.exponent.getD 0 - n.fraction.length)).isFinite

end Numeral

inductive Json where
  | null
  | bool (b : Bool)
  | number (n : Numeral)
  | string (s : String)
  /-- A string with half of a surrogate pair in it, or an object with such a key. It is well formed
  and may be skipped, but stands for no value. -/
  | unreadable
  | array (items : List Json)
  | object (members : List (String × Json))

namespace Json

def nat (n : Nat) : Json :=
  .number (.ofNat n)

def uint64 (n : UInt64) : Json :=
  .nat n.toNat

def uint32 (n : UInt32) : Json :=
  .nat n.toNat

def strings (xs : List String) : Json :=
  .array (xs.map .string)

def orNull {α : Type} (f : α → Json) : Option α → Json
  | none => .null
  | some a => f a

def asString? : Json → Option String
  | string s => some s
  | _ => none

def asBool? : Json → Option Bool
  | bool b => some b
  | _ => none

def asNat? : Json → Option Nat
  | number n => n.toNat?
  | _ => none

def asUInt64? (j : Json) : Option UInt64 :=
  (j.asNat?.filter (· < UInt64.size)).map Nat.toUInt64

def asUInt32? (j : Json) : Option UInt32 :=
  (j.asNat?.filter (· < UInt32.size)).map Nat.toUInt32

def asList? {α : Type} (item? : Json → Option α) : Json → Option (List α)
  | array items => items.mapM item?
  | _ => none

def asOption? {α : Type} (value? : Json → Option α) : Json → Option (Option α)
  | null => some none
  | j => (value? j).map some

/-- The members of a record. An object may hold further members, which are skipped, but none of the
record's own twice. An array lists the members in order and may be too short, not too long. -/
def fields? (names : List String) : Json → Option (List (String × Json))
  | object members =>
    let known := members.filter fun m => names.contains m.1
    if (known.map (·.1)).Nodup then some known else none
  | array items => if items.length ≤ names.length then some (names.zip items) else none
  | _ => none

mutual

def depth : Json → Nat
  | array items => depthItems items + 1
  | object members => depthMembers members + 1
  | _ => 0

def depthItems : List Json → Nat
  | [] => 0
  | j :: rest => max j.depth (depthItems rest)

def depthMembers : List (String × Json) → Nat
  | [] => 0
  | (_, j) :: rest => max j.depth (depthMembers rest)

end

mutual

def hasValue : Json → Bool
  | unreadable => false
  | number n => n.isFinite
  | array items => itemsHaveValue items
  | object members => membersHaveValue members
  | _ => true

def itemsHaveValue : List Json → Bool
  | [] => true
  | j :: rest => j.hasValue && itemsHaveValue rest

def membersHaveValue : List (String × Json) → Bool
  | [] => true
  | (_, j) :: rest => j.hasValue && membersHaveValue rest

end

def maxDepth : Nat := 127

/-- Whether a value that stands inside `level` arrays and objects can be kept for later. Values that
are skipped, or decoded where they stand, need not be. -/
def canKeep (level : Nat) (j : Json) : Bool :=
  level + j.depth ≤ maxDepth && j.hasValue

end Json

end ScriptLens
