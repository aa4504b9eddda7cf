import ScriptLens.Number.Unsigned
import ScriptLens.Text.Blank

namespace ScriptLens

structure Version where
  value : UInt64
deriving DecidableEq

namespace Version

instance : LE Version := ⟨fun a b => a.value ≤ b.value⟩

instance : LT Version := ⟨fun a b => a.value < b.value⟩

instance (a b : Version) : Decidable (a ≤ b) :=
  inferInstanceAs (Decidable (a.value ≤ b.value))

instance (a b : Version) : Decidable (a < b) :=
  inferInstanceAs (Decidable (a.value < b.value))

def initial : Version := ⟨1⟩

def next (v : Version) : Version := ⟨v.value + 1⟩

def text (v : Version) : String :=
  .ofList (Nat.toDigits 10 v.value.toNat)

def read (s : String) : Except UnsignedError Version :=
  (Unsigned.read 10 (Text.trim s.toList)).map fun n => ⟨n.toUInt64⟩

end Version

end ScriptLens
