import ScriptLens.Diagnostic.Basic
import ScriptLens.Options
import ScriptLens.Outline.Entry
import ScriptLens.Reference.Map
import ScriptLens.Source.Origin

namespace ScriptLens

inductive Request where
  | syncBuffer (file : String) (version : Version) (text : String)
  | closeBuffer (file : String)
  | syncLibs (libs : Dict Source)
  | updateOptions (options : CompilerOptions)
  | listFiles
  | version (file : String)
  | text (file : String)
  | outline (file : String)
  | references (file : String) (roots : List String)
  | diagnostics (file : String)
deriving DecidableEq

def Request.method : Request → String
  | syncBuffer .. => "syncBuffer"
  | closeBuffer .. => "closeBuffer"
  | syncLibs .. => "syncExtraLibs"
  | updateOptions .. => "updateCompilerOptions"
  | listFiles => "listFiles"
  | version .. => "getScriptVersion"
  | text .. => "getScriptText"
  | outline .. => "getOutline"
  | references .. => "getReferencedProperties"
  | diagnostics .. => "getSyntacticDiagnostics"

inductive Payload where
  | ack
  | files (names : List String)
  | version (version : Option Version)
  | text (text : Option String)
  | outline (entries : List Outline.Entry)
  | references (refs : References)
  | diagnostics (found : List Diagnostic)
deriving DecidableEq

def Payload.kind : Payload → String
  | ack => "ack"
  | files _ => "files"
  | version _ => "version"
  | text _ => "text"
  | outline _ => "outline"
  | references _ => "references"
  | diagnostics _ => "diagnostics"

inductive Response where
  | ok (result : Payload)
  | error (message : String)
deriving DecidableEq

def Response.toExcept : Response → Except String Payload
  | ok result => .ok result
  | error message => .error message

end ScriptLens
