namespace ScriptLens

inductive Target where
  | es3
  | es5
  | es2015
  | es2016
  | es2017
  | esNext
deriving DecidableEq

namespace Target

def all : List Target :=
  [es3, es5, es2015, es2016, es2017, esNext]

def label : Target → String
  | es3 => "ES3"
  | es5 => "ES5"
  | es2015 => "ES2015"
  | es2016 => "ES2016"
  | es2017 => "ES2017"
  | esNext => "ESNext"

end Target

structure CompilerOptions where
  target : Target := .esNext
  allowJs : Bool := false
deriving DecidableEq

def CompilerOptions.plainScript : CompilerOptions :=
  { allowJs := true }

structure DiagnosticsOptions where
  noSyntaxValidation : Bool := false
deriving DecidableEq

structure Configuration where
  compiler : CompilerOptions := {}
  diagnostics : DiagnosticsOptions := {}
  /-- Milliseconds without a request after which a worker is retired; zero is for never. -/
  maxIdleMs : UInt64 := 120000
  /-- Whether a buffer goes to the worker at once, and not only before the next request. -/
  eagerSync : Bool := false
deriving DecidableEq

def Configuration.maxIdle? (c : Configuration) : Option UInt64 :=
  if c.maxIdleMs = 0 then none else some c.maxIdleMs

end ScriptLens
