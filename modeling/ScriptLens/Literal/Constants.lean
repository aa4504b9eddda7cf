import ScriptLens.Literal.Number
import ScriptLens.Literal.Value
import ScriptLens.Outline.Slot
import ScriptLens.Source.Parsed
import ScriptLens.Store.Table

namespace ScriptLens

mutual

/-- Looks through parentheses and type assertions. -/
def Node.unwrap : Node → Node
  | .mk info children =>
    match (Node.mk info children).kind with
    | .parenthesizedExpression | .typeAssertion => (unwrapFirst children).getD (.mk info children)
    | _ => .mk info children

def Node.unwrapFirst : List Node → Option Node
  | [] => none
  | n :: ns => if n.info.named then some n.unwrap else unwrapFirst ns

end

def Node.literal? (source : String) (n : Node) : Option Literal :=
  let n := n.unwrap
  match n.kind with
  | .stringLiteral => some (.string (.ofList (Text.stripQuotes (n.text source).toList)))
  | .numberLiteral => (NumberLiteral.value? (n.text source)).map .number
  | _ => none

structure Declaration where
  keys : List String
  value : Option Literal
deriving DecidableEq

namespace Declaration

def path (d : Declaration) : String :=
  ".".intercalate d.keys

mutual

def ofValue (source : String) (keys : List String) : Node → List Declaration
  | .mk info children =>
    let self := Node.mk info children
    match self.kind with
    | .parenthesizedExpression | .typeAssertion => ofFirst source keys children
    | .objectLiteral => ⟨keys, none⟩ :: ofMembers source keys children
    | _ => [⟨keys, self.literal? source⟩]

def ofFirst (source : String) (keys : List String) : List Node → List Declaration
  | [] => [⟨keys, none⟩]
  | n :: ns => if n.info.named then ofValue source keys n else ofFirst source keys ns

def ofMembers (source : String) (keys : List String) : List Node → List Declaration
  | [] => []
  | n :: ns =>
    if n.info.named && n.kind = .pair then ofPair source keys n ++ ofMembers source keys ns
    else ofMembers source keys ns

def ofPair (source : String) (keys : List String) : Node → List Declaration
  | .mk info children =>
    match ((Node.mk info children).child? .key).bind (·.staticName? source) with
    | none => []
    | some key => ofValueField source (keys ++ [key]) children

def ofValueField (source : String) (keys : List String) : List Node → List Declaration
  | [] => []
  | n :: ns =>
    if n.info.fields.contains .value then ofValue source keys n else ofValueField source keys ns

end

def ofDeclarator (source : String) (n : Node) : List Declaration :=
  match n.child? .name, n.child? .value with
  | some name, some value =>
    if n.kind = .variableDeclarator ∧ name.kind = .identifier then
      ofValue source [name.text source] value
    else []
  | _, _ => []

def enumMember (source : String) (next : Option Binary64) (n : Node) :
    Option String × Option Literal :=
  if n.kind = .enumAssignment then
    ((n.child? .name).bind (·.staticName? source), (n.child? .value).bind (·.literal? source))
  else
    (n.staticName? source, next.map .number)

/-- What follows a member without an initialiser of its own: one more than a number, nothing after
anything else. -/
def following : Option Literal → Option Binary64
  | some (.number x) => some x.increment
  | _ => none

def ofEnumMembers (source name : String) (next : Option Binary64) : List Node → List Declaration
  | [] => []
  | n :: ns =>
    if n.kind = .comment then ofEnumMembers source name next ns
    else
      let (key, value) := enumMember source next n
      let rest := ofEnumMembers source name (following value) ns
      match key with
      | some key => ⟨[name, key], value⟩ :: rest
      | none => rest

def ofEnum (source : String) (n : Node) : List Declaration :=
  match n.child? .name, n.child? .body with
  | some name, some body =>
    ofEnumMembers source (name.text source) (some .zero) body.namedChildren
  | _, _ => []

def ofNode (source : String) (n : Node) : List Declaration :=
  match n.kind with
  | .enumDeclaration => ofEnum source n
  | .lexicalDeclaration =>
    if n.isConst then n.namedChildren.flatMap (ofDeclarator source) else []
  | _ => []

end Declaration

abbrev Constants := Table Literal

namespace Constants

def declare (c : Constants) (d : Declaration) : Constants :=
  match d.value with
  | some value => c.insert d.path value
  | none => c

def index (c : Constants) (t : ParsedSource) : Constants :=
  Node.walk (fun _ c => c.info.named) (fun c n => (Declaration.ofNode t.text n).foldl declare c)
    [t.root] c

def ofSources (ts : List ParsedSource) : Constants :=
  ts.foldl index .empty

mutual

/-- The keys of a chain of plain member names and string subscripts, from the base inwards. -/
def keys? (source : String) : Node → Option (List String)
  | .mk info children =>
    let self := Node.mk info children
    match self.kind with
    | .identifier => (self.text? source).map ([·])
    | .memberAccess => do
      let base ← objectKeys? source children
      let property ← (self.child? .property).filter (·.kind = .propertyIdentifier)
      return base ++ [← property.text? source]
    | .subscriptAccess => do
      let base ← objectKeys? source children
      let index ← (self.child? .index).filter (·.kind = .stringLiteral)
      return base ++ [.ofList (Text.stripQuotes (← index.text? source).toList)]
    | .parenthesizedExpression => firstKeys? source children
    | _ => none

def objectKeys? (source : String) : List Node → Option (List String)
  | [] => none
  | n :: ns => if n.info.fields.contains .object then keys? source n else objectKeys? source ns

def firstKeys? (source : String) : List Node → Option (List String)
  | [] => none
  | n :: ns => if n.info.named then keys? source n else firstKeys? source ns

end

def resolve? (c : Constants) (source : String) (n : Node) : Option Literal :=
  (keys? source n).bind fun keys => c.get? (".".intercalate keys)

end Constants

end ScriptLens
