import ScriptLens.Json.Printer
import ScriptLens.Json.Reader
import ScriptLens.Wire.Record
import ScriptLens.Worker.Message

namespace ScriptLens

namespace Json

/-- A tag with its parts, and whether those were kept. Other members are skipped; both may also
stand in an array of two. -/
def tagged? (kept : Bool) (tag parts : String) : Json → Option (Json × Option Json × Bool)
  | object members =>
    match members.filter fun m => m.1 = tag || m.1 = parts with
    | [(first, t)] => if first = tag then some (t, none, kept) else none
    | [(first, a), (second, b)] =>
      if first = tag ∧ second = parts then some (a, some b, kept)
      else if first = parts ∧ second = tag ∧ (kept || a.canKeep 1) then some (b, some a, true)
      else none
    | _ => none
  | array [t, p] => some (t, some p, kept)
  | _ => none

def objectFields? (names : List String) : Json → Option (List (String × Json))
  | object members => (object members).fields? names
  | _ => none

def absent? : Option Json → Option Unit
  | none => some ()
  | some null => some ()
  | some _ => none

end Json

namespace Request

def params (r : Request) : Option Json :=
  match r with
  | syncBuffer file v t =>
    some (.object [("fileName", .string file), ("version", v.toJson), ("text", .string t)])
  | syncLibs libs => some (.object [("libs", libs.toJson Source.toJson)])
  | updateOptions options => some (.object [("options", options.toJson)])
  | listFiles => none
  | references file roots =>
    some (.object [("fileName", .string file), ("roots", .strings roots)])
  | closeBuffer file | version file | text file | outline file | diagnostics file =>
    some (.object [("fileName", .string file)])

def toJson (r : Request) : Json :=
  match r.params with
  | some params => .object [("method", .string r.method), ("params", params)]
  | none => .object [("method", .string r.method)]

def ofFile? (request : String → Request) (params : Json) : Option Request := do
  let fields ← params.objectFields? ["fileName"]
  return request (← Json.required? fields "fileName" Json.asString?)

def syncBuffer? (params : Json) : Option Request := do
  let fields ← params.objectFields? ["fileName", "version", "text"]
  return syncBuffer
    (← Json.required? fields "fileName" Json.asString?)
    (← Json.required? fields "version" Version.ofJson?)
    (← Json.required? fields "text" Json.asString?)

def syncLibs? (params : Json) : Option Request := do
  let fields ← params.objectFields? ["libs"]
  return syncLibs (← Json.required? fields "libs" (Json.asDict? Source.ofJson?))

def updateOptions? (kept : Bool) (params : Json) : Option Request := do
  let fields ← params.objectFields? ["options"]
  return updateOptions (← Json.required? fields "options" (CompilerOptions.ofJson? kept))

def references? (params : Json) : Option Request := do
  let fields ← params.objectFields? ["fileName", "roots"]
  return references
    (← Json.required? fields "fileName" Json.asString?)
    (← Json.required? fields "roots" (Json.asList? Json.asString?))

def readers (kept : Bool) : List (String × (Option Json → Option Request)) :=
  [("syncBuffer", (·.bind syncBuffer?)),
   ("closeBuffer", (·.bind (ofFile? closeBuffer))),
   ("syncExtraLibs", (·.bind syncLibs?)),
   ("updateCompilerOptions", (·.bind (updateOptions? kept))),
   ("listFiles", fun params => (Json.absent? params).map fun _ => listFiles),
   ("getScriptVersion", (·.bind (ofFile? version))),
   ("getScriptText", (·.bind (ofFile? text))),
   ("getOutline", (·.bind (ofFile? outline))),
   ("getReferencedProperties", (·.bind references?)),
   ("getSyntacticDiagnostics", (·.bind (ofFile? diagnostics)))]

def ofJson? (j : Json) : Option Request := do
  let (tag, params, kept) ← j.tagged? false "method" "params"
  let reader ← tag.asChoice? false (readers kept)
  reader params

def read? (line : String) : Option Request :=
  (Json.read? line).bind ofJson?

end Request

namespace Payload

def value? (p : Payload) : Option Json :=
  match p with
  | ack => none
  | files names => some (.strings names)
  | version v => some (.orNull Version.toJson v)
  | text t => some (.orNull .string t)
  | outline entries => some (.array (entries.map (·.toJson)))
  | references refs => some refs.toJson
  | diagnostics found => some (.array (found.map (·.toJson)))

def toJson (p : Payload) : Json :=
  match p.value? with
  | some value => .object [("kind", .string p.kind), ("value", value)]
  | none => .object [("kind", .string p.kind)]

/-- How the value of a payload is read, by its tag. One that may be null may also be absent. -/
def readers (kept : Bool) : List (String × (Option Json → Option Payload)) :=
  [("ack", fun value => (Json.absent? value).map fun _ => ack),
   ("files", (·.bind fun j => (j.asList? Json.asString?).map files)),
   ("version", fun value => ((value.getD .null).asOption? Version.ofJson?).map version),
   ("text", fun value => ((value.getD .null).asOption? Json.asString?).map text),
   ("outline", (·.bind fun j => (j.asList? (Outline.Entry.ofJson? kept)).map outline)),
   ("references", (·.bind fun j => (References.ofJson? j).map references)),
   ("diagnostics", (·.bind fun j => (j.asList? (Diagnostic.ofJson? kept)).map diagnostics))]

def ofJson? (kept : Bool) (j : Json) : Option Payload := do
  let (tag, value, partsKept) ← j.tagged? kept "kind" "value"
  let reader ← tag.asChoice? kept (readers partsKept)
  reader value

end Payload

namespace Response

def toJson : Response → Json
  | ok result => .object [("status", .string "ok"), ("result", result.toJson)]
  | error message => .object [("status", .string "error"), ("message", .string message)]

def ofParts? (status : String) (parts : Json) : Option Response :=
  match status with
  | "ok" => do
    let fields ← parts.fields? ["result"]
    return ok (← Json.required? fields "result" (Payload.ofJson? true))
  | "error" => do
    let fields ← parts.fields? ["message"]
    return error (← Json.required? fields "message" Json.asString?)
  | _ => none

def ofJson? (j : Json) : Option Response :=
  if !j.canKeep 0 then none
  else
    match j with
    | .object members =>
      match members.partition fun m => m.1 = "status" with
      | ([(_, .string status)], parts) => ofParts? status (.object parts)
      | _ => none
    | .array (.string status :: parts) => ofParts? status (.array parts)
    | _ => none

end Response

end ScriptLens
