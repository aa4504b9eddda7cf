namespace ScriptLens

inductive Construct where
  | classLike
  | objectLiteral
  | method
  | constructor
  | function
  | getter
  | setter
deriving DecidableEq

namespace Construct

def all : List Construct :=
  [classLike, objectLiteral, method, constructor, function, getter, setter]

def label : Construct → String
  | classLike => "Class"
  | objectLiteral => "ObjectLiteral"
  | method => "Method"
  | constructor => "Constructor"
  | function => "Function"
  | getter => "Get"
  | setter => "Set"

end Construct

namespace Outline

/-- One construct, in document order. Ordinals count from one, lines and levels of indentation from
zero. -/
structure Entry where
  name : String
  construct : Construct
  ordinal : UInt32
  line : UInt64
  indent : UInt64
deriving DecidableEq

def anonymous : String := "\x7b\x7d"

def anonymousArrow : String := "() => \x7b\x7d"

def anonymousAccessor : String := "()"

def constructorName : String := "constructor ()"

end Outline

end ScriptLens
