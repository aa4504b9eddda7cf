import ScriptLens.Worker.Message

namespace ScriptLens

inductive Query where
  | outline
  | references (roots : List String)
  | diagnostics
deriving DecidableEq

def Query.ofRoots (roots : List String) : Query :=
  .references (NameSet.ofNames roots).keys

structure CacheKey where
  file : String
  version : Version
  query : Query
deriving DecidableEq

structure Cache where
  entries : List (CacheKey × Payload)
deriving DecidableEq

namespace Cache

def empty : Cache := ⟨[]⟩

def size (c : Cache) : Nat :=
  c.entries.length

def get? (c : Cache) (key : CacheKey) : Option Payload :=
  c.entries.lookup key

def insert (c : Cache) (key : CacheKey) (payload : Payload) : Cache :=
  ⟨(key, payload) :: c.entries.filter (·.1 ≠ key)⟩

def forget (c : Cache) (file : String) : Cache :=
  ⟨c.entries.filter (·.1.file ≠ file)⟩

end Cache

end ScriptLens
