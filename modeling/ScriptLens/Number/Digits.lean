namespace ScriptLens.Digits

def value (c : Char) : Fin 10 :=
  .ofNat 10 (c.toNat - '0'.toNat)

def split (cs : List Char) : List (Fin 10) × List Char :=
  ((cs.takeWhile Char.isDigit).map value, cs.dropWhile Char.isDigit)

def append (acc : Nat) (ds : List (Fin 10)) : Nat :=
  ds.foldl (fun acc d => acc * 10 + d.val) acc

def toNat (ds : List (Fin 10)) : Nat :=
  append 0 ds

def number? (cs : List Char) : Option (Nat × List Char) :=
  match split cs with
  | ([], _) => none
  | (ds, rest) => some (toNat ds, rest)

end ScriptLens.Digits
