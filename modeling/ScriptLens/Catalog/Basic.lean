import ScriptLens.Catalog.Builtin
import ScriptLens.Source.Dialect
import ScriptLens.Source.Origin
import ScriptLens.Store.Dict
import ScriptLens.Store.Table

namespace ScriptLens

inductive CatalogError where
  | staleVersion (file : String) (current attempted : Version)
  | duplicateSource (file : String)
deriving DecidableEq

def staleMessage (file : String) (current attempted : Version) : String :=
  "Stale version for " ++ file ++ ": current " ++ current.text ++ ", got " ++ attempted.text

def CatalogError.message : CatalogError → String
  | staleVersion file current attempted => staleMessage file current attempted
  | duplicateSource file => "Source already registered: " ++ file

structure Entered extends Source where
  origin : Origin
deriving DecidableEq

def Entered.live (s : Source) : Entered :=
  { s with origin := .liveBuffer }

def Entered.declaration (s : Source) : Entered :=
  { s with origin := .auxiliaryDeclaration }

structure Catalog where
  buffers : Table Entered := .empty
  auxiliary : Dict Entered := .empty
  options : CompilerOptions
deriving DecidableEq

namespace Catalog

def isBuiltin (file : String) : Bool :=
  (Builtin.ofName? file).isSome

def sync (c : Catalog) (file : String) (version : Version) (text : String) :
    Except CatalogError Catalog :=
  if c.auxiliary.contains file || isBuiltin file then .error (.duplicateSource file)
  else
    let opened : Except CatalogError Catalog :=
      .ok { c with buffers := c.buffers.insert file (.live ⟨text, version⟩) }
    match c.buffers.get? file with
    | some current =>
      if version ≤ current.version then .error (.staleVersion file current.version version)
      else opened
    | none => opened

def close (c : Catalog) (file : String) : Catalog :=
  { c with buffers := c.buffers.erase file }

/-- Replaces all auxiliary declarations, unless one of them has the name of another source; the
first such name is reported. -/
def setAuxiliary (c : Catalog) (libs : Dict Source) : Except CatalogError Catalog :=
  match libs.keys.find? fun name => c.buffers.contains name || isBuiltin name with
  | some clash => .error (.duplicateSource clash)
  | none => .ok { c with auxiliary := libs.map .declaration }

def setOptions (c : Catalog) (options : CompilerOptions) : Catalog :=
  { c with options }

def builtin (c : Catalog) : Builtin :=
  .ofTarget c.options.target

def entered? (c : Catalog) (file : String) : Option Entered :=
  (c.buffers.get? file).or (c.auxiliary.get? file)

/-- All names: buffers in the order they were opened, auxiliary declarations in ascending order, and
the builtin declarations in effect. -/
def files (c : Catalog) : List String :=
  c.buffers.keys ++ c.auxiliary.keys ++ [c.builtin.name]

/-- Of the builtin declarations only those in effect have a version. -/
def version? (c : Catalog) (file : String) : Option Version :=
  ((c.entered? file).map (·.version)).or
    (if file = c.builtin.name then some Builtin.version else none)

def text? (c : Catalog) (file : String) : Option String :=
  ((c.entered? file).map (·.text)).or ((Builtin.ofName? file).map (·.text))

def origin? (c : Catalog) (file : String) : Option Origin :=
  ((c.entered? file).map (·.origin)).or (if isBuiltin file then some .builtinDefault else none)

def dialect (c : Catalog) (file : String) : Dialect :=
  .ofFileName file c.options.allowJs

end Catalog

end ScriptLens
