import ScriptLens.Store.Dict

namespace ScriptLens

structure References where
  byRoot : Dict NameSet
deriving DecidableEq

namespace References

def ofRoots (roots : List String) : References :=
  ⟨.ofList (roots.map (·, .empty))⟩

def isTracked (r : References) (root : String) : Bool :=
  r.byRoot.contains root

def get? (r : References) (root : String) : Option NameSet :=
  r.byRoot.get? root

/-- Records an access. Roots that are not tracked are passed over. -/
def record (r : References) (root member : String) : References :=
  match r.get? root with
  | some members => ⟨r.byRoot.insert root (members.insert member ())⟩
  | none => r

def isNew (r : References) (root member : String) : Bool :=
  (r.get? root).any (!·.contains member)

def rootCount (r : References) : Nat :=
  r.byRoot.size

def accessCount (r : References) : Nat :=
  r.byRoot.values.foldl (fun count names => count + names.size) 0

end References

end ScriptLens
