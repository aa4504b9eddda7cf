import ScriptLens.Literal.Constants
import ScriptLens.Reference.Map

namespace ScriptLens

/-- What tells the value of an expression, given the text that its node lies in. -/
abbrev Valuation := String → Node → Option Literal

namespace Valuation

def silent : Valuation := fun _ _ => none

def ofTable (table : Table Literal) : Valuation := fun source n =>
  (n.text? source).bind table.get?

def ofConstants (c : Constants) : Valuation := c.resolve?

end Valuation

namespace References

def principalRoot : String := "Users"

def currentPrincipal : String := "principal"

def systemMember : String := "System"

def indexName? (valuation : Valuation) (source root : String) (index : Node) : Option String :=
  match index.kind with
  | .identifier =>
    if root = principalRoot ∧ index.text source = currentPrincipal then some systemMember else none
  | .memberAccess => (valuation source index).map (·.text)
  | .stringLiteral => some (.ofList (Text.stripQuotes (index.text source).toList))
  | _ => none

def access? (valuation : Valuation) (source : String) (n : Node) : Option (String × String) :=
  match n.kind with
  | .memberAccess => do
    let object ← n.child? .object
    let property ← n.child? .property
    return (object.text source, property.text source)
  | .subscriptAccess => do
    let object ← n.child? .object
    let index ← n.child? .index
    let root := object.text source
    return (root, ← indexName? valuation source root index)
  | _ => none

def recordNode (valuation : Valuation) (source : String) (refs : References) (n : Node) :
    References :=
  match access? valuation source n with
  | some (root, member) => refs.record root member
  | none => refs

def ofSource (valuation : Valuation) (roots : List String) (t : ParsedSource) : References :=
  let refs := ofRoots roots
  if refs.byRoot.isEmpty then refs
  else Node.walk (fun _ c => c.info.named) (recordNode valuation t.text) [t.root] refs

end References

end ScriptLens
