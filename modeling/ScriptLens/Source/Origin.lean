import ScriptLens.Source.Version

namespace ScriptLens

inductive Origin where
  | liveBuffer
  | auxiliaryDeclaration
  | builtinDefault
deriving DecidableEq

namespace Origin

def all : List Origin :=
  [liveBuffer, auxiliaryDeclaration, builtinDefault]

def label : Origin → String
  | liveBuffer => "live-buffer"
  | auxiliaryDeclaration => "auxiliary-declaration"
  | builtinDefault => "builtin-default"

end Origin

structure Source where
  text : String
  version : Version
deriving DecidableEq

end ScriptLens
