namespace ScriptLens

inductive Category where
  | warning
  | error
  | suggestion
  | message
deriving DecidableEq

namespace Category

def all : List Category :=
  [warning, error, suggestion, message]

def label : Category → String
  | warning => "warning"
  | error => "error"
  | suggestion => "suggestion"
  | message => "message"

end Category

/-- A fault in a source. Start and length count bytes, lines and characters count from zero. -/
structure Diagnostic where
  message : String
  category : Category
  start : UInt64
  length : UInt64
  line : UInt64
  character : UInt64
deriving DecidableEq

end ScriptLens
