import ScriptLens.Session.Error

namespace ScriptLens

structure Settings where
  libs : Dict Source := .empty
  compiler : CompilerOptions := {}
  diagnostics : DiagnosticsOptions := {}
  maxIdle : Option UInt64 := none
  eagerSync : Bool := false
  revision : UInt64 := 0
deriving DecidableEq

structure LibHandle where
  path : String
  version : Version
deriving DecidableEq

namespace Settings

def ofConfiguration (c : Configuration) : Settings :=
  { compiler := c.compiler
    diagnostics := c.diagnostics
    maxIdle := c.maxIdle?
    eagerSync := c.eagerSync }

def toConfiguration (s : Settings) : Configuration :=
  { compiler := s.compiler
    diagnostics := s.diagnostics
    maxIdleMs := s.maxIdle.getD 0
    eagerSync := s.eagerSync }

def advance (s : Settings) : Settings :=
  { s with revision := s.revision + 1 }

def setCompiler (s : Settings) (options : CompilerOptions) : Settings :=
  { s with compiler := options }.advance

def setDiagnostics (s : Settings) (options : DiagnosticsOptions) : Settings :=
  { s with diagnostics := options }.advance

def pathAt (millis : Nat) : String :=
  .ofList ("ts:extralib-".toList ++ Nat.toDigits 10 millis)

def freeMillis (libs : Dict Source) : Nat → Nat → Nat
  | 0, millis => millis
  | tries + 1, millis =>
    if libs.contains (pathAt millis) then freeMillis libs tries (millis + 1) else millis

/-- The path of the first millisecond, from the clock on, whose path is free. With `n` files there
are at most `n` paths to pass over. -/
def freePath (libs : Dict Source) (clock : Nat) : String :=
  pathAt (freeMillis libs libs.size clock)

def addLib (s : Settings) (clock : Nat) (content : String) (path : Option String) :
    Except SessionError (LibHandle × Settings) :=
  let path := path.getD (freePath s.libs clock)
  if s.libs.contains path then .error (.duplicateLib path)
  else
    let s := s.advance
    let version : Version := ⟨s.revision⟩
    .ok (⟨path, version⟩, { s with libs := s.libs.insert path ⟨content, version⟩ })

def setLibs (s : Settings) (libs : List (String × String)) : Settings :=
  let s := s.advance
  { s with libs := .ofList (libs.map fun (path, content) => (path, ⟨content, ⟨s.revision⟩⟩)) }

def dispose (s : Settings) (h : LibHandle) : Bool × Settings :=
  if (s.libs.get? h.path).any (·.version = h.version) then
    (true, { s with libs := s.libs.erase h.path }.advance)
  else
    (false, s)

end Settings

end ScriptLens
