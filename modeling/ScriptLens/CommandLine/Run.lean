import ScriptLens.CommandLine.Arguments
import ScriptLens.CommandLine.Directory
import ScriptLens.CommandLine.Schema
import ScriptLens.Outline.Render
import ScriptLens.Session.Basic
import ScriptLens.Worker.Line

namespace ScriptLens

inductive RunError where
  | configFile (e : FileError)
  | configForm
  | file (e : FileError)
  | session (e : SessionError)
deriving DecidableEq

def RunError.report : RunError → String
  | configFile e => "Error: I/O error: " ++ e.message ++ "\n"
  | configForm => "Error: JSON serialization/deserialization error"
  | file e => "Error: " ++ e.message ++ "\n"
  | session e => "Error: " ++ e.message ++ "\n"

structure Outcome where
  exit : UInt8
  stdout : String
  stderr : String
deriving DecidableEq

namespace CommandLine

def versionText : String := "scriptscope 0.1.0\n"

def readConfiguration (read : ReadFile) : Option String → Except RunError Configuration
  | none => .ok {}
  | some path =>
    match read path with
    | .error e => .error (.configFile e)
    | .ok text =>
      match (Json.read? text).bind Configuration.ofJson? with
      | some config => .ok config
      | none => .error .configForm

def readSource (read : ReadFile) (path : String) : Except RunError String :=
  (read path).mapError .file

def addLib (read : ReadFile) (settings : Settings) (path : String) : Except RunError Settings := do
  let content ← readSource read path
  let (_, settings) ← (settings.addLib 0 content (some path)).mapError .session
  return settings

def openSession (parser : Parser) (read : ReadFile) (config : Configuration) (path : String)
    (libs : List String) : Except RunError Session := do
  let session := Session.start config
  let settings ← libs.foldlM (addLib read) session.settings
  let text ← readSource read path
  match (session.withSettings settings).sync parser path .initial text with
  | (.ok (), session) => .ok session
  | (.error e, _) => .error (.session e)

def query {α : Type} (question : Session → Except SessionError α × Session) (s : Session) :
    Except RunError α :=
  (question s).1.mapError .session

def jsonText (j : Json) : String :=
  j.indented ++ "\n"

def referenceLine (root : String) (members : NameSet) : String :=
  root ++ ": " ++ ", ".intercalate members.keys ++ "\n"

def diagnosticLine (path : String) (d : Diagnostic) : String :=
  path ++ ":" ++ (d.line.toNat + 1).repr ++ ":" ++ (d.character.toNat + 1).repr ++ ": "
    ++ d.message ++ "\n"

def outlineText (json tree : Bool) (entries : List Outline.Entry) : String :=
  if json && tree then jsonText (.array ((Outline.forest entries).map (·.toJson)))
  else if json then jsonText (.array (entries.map (·.toJson)))
  else Outline.render entries

def referencesText (json : Bool) (refs : References) : String :=
  if json then jsonText refs.toJson
  else String.join (refs.byRoot.entries.map fun (root, members) => referenceLine root members)

def diagnosticsText (json : Bool) (path : String) (found : List Diagnostic) : String :=
  if json then jsonText (.array (found.map (·.toJson)))
  else String.join (found.map (diagnosticLine path))

def serveText (parser : Parser) (complaint : Worker.Complaint) (config : Configuration)
    (input : String) : String :=
  let lines := (Text.lines input.toList).map String.ofList
  String.join (((Worker.start config).serve parser complaint lines).map (· ++ "\n"))

def perform (parser : Parser) (complaint : Worker.Complaint) (read : ReadFile)
    (config : Configuration) (input : String) : Command → Except RunError String
  | .outline path json tree => do
    let s ← openSession parser read config path []
    return outlineText json tree (← query (·.outline parser path) s)
  | .refs path roots libs json => do
    let s ← openSession parser read config path libs
    return referencesText json (← query (·.references parser path roots) s)
  | .diagnostics path json => do
    let s ← openSession parser read config path []
    return diagnosticsText json path (← query (·.diagnostics parser path) s)
  | .serve => return serveText parser complaint config input
  | .schema => return jsonText Schema.all

def usage (e : UsageError) : Outcome :=
  ⟨e.exitCode, if e = .version then versionText else "", ""⟩

def run (parser : Parser) (complaint : Worker.Complaint) (read : ReadFile) (input : String)
    (args : List String) : Outcome :=
  match Arguments.parse args with
  | .error e => usage e
  | .ok invocation =>
    let result := do
      let config ← readConfiguration read invocation.config
      perform parser complaint read config input invocation.command
    match result with
    | .ok written => ⟨0, written, ""⟩
    | .error e => ⟨1, "", e.report⟩

end CommandLine

end ScriptLens
