import ScriptLens.Outline.Entry
import ScriptLens.Text.Line
import ScriptLens.Tree.Node

namespace ScriptLens

def nonEmpty? (s : String) : Option String :=
  if s = "" then none else some s

/-- The static name of a member or key: an identifier as it stands, a string without its quotes.
Computed and numeric names have none, nor has the empty string. -/
def Node.staticName? (source : String) (n : Node) : Option String :=
  match n.kind with
  | .identifier | .propertyIdentifier => nonEmpty? (n.text source)
  | .stringLiteral => nonEmpty? (.ofList (Text.stripQuotes (n.text source).toList))
  | _ => none

def Node.finalLine (source : String) (n : Node) : String :=
  .ofList (Text.finalLine (n.text source).toList)

namespace Outline

structure Slot where
  name : Option String := none
  isProperty : Bool := false
deriving DecidableEq

def calleeName? (source : String) (call : Node) : Option String :=
  if call.kind = .callExpression then
    (call.child? .function).map fun callee => callee.finalLine source ++ "()"
  else
    none

def targetName? (source : String) (target : Node) : Option String :=
  match target.kind with
  | .identifier | .memberAccess => nonEmpty? (target.finalLine source)
  | _ => none

def slot (source : String) : List Node → Slot
  | [] => {}
  | parent :: above =>
    match parent.kind with
    | .pair => ⟨(parent.child? .key).bind (·.staticName? source), true⟩
    | .variableDeclarator =>
      let declared := (parent.child? .name).filter (·.kind = .identifier)
      ⟨declared.bind fun n => nonEmpty? (n.text source), false⟩
    | .arguments => ⟨above.head?.bind (calleeName? source), false⟩
    | .assignment => ⟨(parent.child? .left).bind (targetName? source), false⟩
    | _ => {}

end Outline

end ScriptLens
