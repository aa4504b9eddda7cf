import ScriptLens.Text.Slice
import ScriptLens.Tree.Kind

namespace ScriptLens

inductive Field where
  | name
  | body
  | value
  | key
  | left
  | function
  | object
  | property
  | index
deriving DecidableEq

/-- What the parser says of one node, apart from its children. Offsets and columns count bytes,
rows count line feeds. -/
structure NodeInfo where
  type : String
  start : UInt64
  stop : UInt64
  row : UInt64
  column : UInt64
  named : Bool
  isError : Bool
  missing : Bool
  hasError : Bool
  fields : List Field
deriving DecidableEq

inductive Node where
  | mk (info : NodeInfo) (children : List Node)

inductive Accessor where
  | getter
  | setter
deriving DecidableEq

namespace Node

def info : Node → NodeInfo
  | mk info _ => info

def children : Node → List Node
  | mk _ children => children

mutual

def size : Node → Nat
  | mk _ children => sizeAll children + 1

def sizeAll : List Node → Nat
  | [] => 0
  | n :: ns => n.size + sizeAll ns

end

def kind (n : Node) : NodeKind :=
  if n.info.isError then .error else .ofTypeName n.info.type

def namedChildren (n : Node) : List Node :=
  n.children.filter (·.info.named)

def child? (n : Node) (f : Field) : Option Node :=
  n.children.find? (·.info.fields.contains f)

def text? (source : String) (n : Node) : Option String :=
  (Text.slice? n.info.start.toNat n.info.stop.toNat source.toList).map String.ofList

/-- As `text?`; a range that cuts a character covers nothing. -/
def text (source : String) (n : Node) : String :=
  (n.text? source).getD ""

theorem sizeAll_filter_le (p : Node → Bool) (ns : List Node) :
    sizeAll (ns.filter p) ≤ sizeAll ns := by
  induction ns with
  | nil => simp
  | cons n ns ih => by_cases h : p n <;> simp [h, sizeAll] <;> omega

theorem sizeAll_filter_lt (p : Node → Bool) (n : Node) : sizeAll (n.children.filter p) < n.size := by
  obtain ⟨info, children⟩ := n
  exact Nat.lt_succ_of_le (sizeAll_filter_le p children)

theorem sizeAll_namedChildren_lt (n : Node) : sizeAll n.namedChildren < n.size :=
  sizeAll_filter_lt (·.info.named) n

theorem sizeAll_append (ms ns : List Node) : sizeAll (ms ++ ns) = sizeAll ms + sizeAll ns := by
  induction ms with
  | nil => rw [List.nil_append, sizeAll, Nat.zero_add]
  | cons m ms ih => rw [List.cons_append, sizeAll, sizeAll, ih, Nat.add_assoc]

/-- Whether the keyword `get` or `set` stands in front of a member. A member that is only called
`get` has a named child for it, no keyword. -/
def accessor? (n : Node) : Option Accessor :=
  n.children.findSome? fun c =>
    if c.info.named then none
    else if c.info.type = "get" then some .getter
    else if c.info.type = "set" then some .setter
    else none

def isConst (n : Node) : Bool :=
  (n.children.find? (!·.info.named)).any (·.info.type == "const")

end Node

end ScriptLens
