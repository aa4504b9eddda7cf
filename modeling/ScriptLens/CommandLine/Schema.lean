import ScriptLens.Json.Printer
import ScriptLens.Wire.Record

namespace ScriptLens.Schema

def node (members : List (String × Json)) : Json :=
  (Dict.ofList members).toJson id

def ofType (name : String) : Json :=
  node [("type", .string name)]

def text : Json := ofType "string"

def ref (name : String) : Json :=
  node [("$ref", .string ("#/$defs/" ++ name))]

def list (item : Json) : Json :=
  node [("items", item), ("type", .string "array")]

def choice (labels : List String) : Json :=
  node [("enum", .strings labels), ("type", .string "string")]

def tag (name : String) : Json :=
  node [("const", .string name), ("type", .string "string")]

def unsignedMembers (format : String) : List (String × Json) :=
  [("format", .string format), ("minimum", .nat 0), ("type", .string "integer")]

def unsigned (format : String) : Json :=
  node (unsignedMembers format)

def described (description : String) : String × Json :=
  ("description", .string description)

def withDefault (default : Json) : String × Json :=
  ("default", default)

def record (members : List (String × Json)) (more : List (String × Json) := []) : Json :=
  node ([("properties", node members), ("required", .strings (members.map (·.1))),
    ("type", .string "object")] ++ more)

def options (members : List (String × Json)) : Json :=
  node [("properties", node members), ("type", .string "object")]

def flag (default : Bool) (more : List (String × Json) := []) : Json :=
  node ([withDefault (.bool default), ("type", .string "boolean")] ++ more)

def target : Json :=
  choice (Target.all.map (·.label))

def compilerOptions : Json :=
  let default : CompilerOptions := {}
  options
    [("target", node [("$ref", .string "#/$defs/ScriptTarget"), withDefault default.target.toJson]),
     ("allowJs", flag default.allowJs)]

def diagnosticsOptions : Json :=
  options [("noSyntaxValidation", flag false)]

def document (title : String) (parts : List (String × Json)) (members : List (String × Json)) :
    Json :=
  node ([("$defs", node parts), ("$schema", .string "https://json-schema.org/draft/2020-12/schema"),
    ("title", .string title)] ++ members)

def configuration : Json :=
  let default : Configuration := {}
  let sorted (j : Json) : Json :=
    match j with
    | .object members => node members
    | j => j
  document "WorkerConfig"
    [("CompilerOptions", compilerOptions), ("DiagnosticsOptions", diagnosticsOptions),
     ("ScriptTarget", target)]
    [described "Worker settings as read from a JSON file. Every field is optional.",
     ("properties", node
       [("compilerOptions", node
          [("$ref", .string "#/$defs/CompilerOptions"),
           withDefault (sorted default.compiler.toJson)]),
        ("diagnosticsOptions", node
          [("$ref", .string "#/$defs/DiagnosticsOptions"),
           withDefault (sorted default.diagnostics.toJson)]),
        ("workerMaxIdleMs", node (unsignedMembers "uint64" ++
          [withDefault (.uint64 default.maxIdleMs),
           described "Idle time after which the worker is retired. Zero disables retirement."])),
        ("eagerModelSync", flag default.eagerSync
          [described "Push every open buffer to the worker eagerly instead of on first query."])]),
     ("type", .string "object")]

def requestForm (method : String) (params : List (String × Json))
    (more : List (String × Json) := []) : Json :=
  if params.isEmpty then record [("method", tag method)] more
  else record [("method", tag method), ("params", record params)] more

def request : Json :=
  let file := ("fileName", text)
  document "WorkerRequest"
    [("CompilerOptions", compilerOptions),
     ("ExtraLib", record [("content", text), ("version", ref "ScriptVersion")]
       [described "An auxiliary declaration source pushed by the caller."]),
     ("ScriptTarget", target), ("ScriptVersion", text)]
    [("oneOf", .array
      [requestForm "syncBuffer" [file, ("version", ref "ScriptVersion"), ("text", text)]
         [described "Create or update a live buffer. Updates must carry a greater version."],
       requestForm "closeBuffer" [file],
       requestForm "syncExtraLibs"
         [("libs", node [("additionalProperties", ref "ExtraLib"), ("type", .string "object")])]
         [described "Replace the whole auxiliary declaration set."],
       requestForm "updateCompilerOptions" [("options", ref "CompilerOptions")],
       requestForm "listFiles" [],
       requestForm "getScriptVersion" [file],
       requestForm "getScriptText" [file],
       requestForm "getOutline" [file],
       requestForm "getReferencedProperties" [file, ("roots", list text)],
       requestForm "getSyntacticDiagnostics" [file]])]

def diagnostic : Json :=
  record
    [("message", text), ("category", ref "DiagnosticCategory"),
     ("start", node (unsignedMembers "uint" ++ [described "Byte offset of the first character."])),
     ("length", unsigned "uint"), ("line", unsigned "uint"), ("character", unsigned "uint")]

def outlineEntry : Json :=
  record
    [("name", text), ("kind", ref "OutlineKind"), ("ordinal", unsigned "uint32"),
     ("line", unsigned "uint"), ("indentAmount", unsigned "uint")]
    [described "One named construct in document order."]

def references : Json :=
  node
    [("additionalProperties", node
       [("items", text), ("type", .string "array"), ("uniqueItems", .bool true)]),
     described ("Tracked root name -> distinct member/index names accessed on it.\n\n"
       ++ "Every tracked root is present as a key, even when nothing was accessed.\n"
       ++ "Ordered collections keep the serialized form stable between calls."),
     ("type", .string "object")]

def payloadForm (kind : String) (value : Json) : Json :=
  record [("kind", tag kind), ("value", value)]

def payload : Json :=
  node [("oneOf", .array
    [record [("kind", tag "ack")],
     payloadForm "files" (list text),
     payloadForm "version" (node [("anyOf", .array [ref "ScriptVersion", ofType "null"])]),
     payloadForm "text" (node [("type", .strings ["string", "null"])]),
     payloadForm "outline" (list (ref "OutlineEntry")),
     payloadForm "references" (ref "ReferenceMap"),
     payloadForm "diagnostics" (list (ref "Diagnostic"))])]

def response : Json :=
  document "WorkerResponse"
    [("Diagnostic", diagnostic),
     ("DiagnosticCategory", choice (Category.all.map (·.label))),
     ("OutlineEntry", outlineEntry),
     ("OutlineKind", choice (Construct.all.map (·.label))),
     ("ReferenceMap", references),
     ("ResponsePayload", payload),
     ("ScriptVersion", text)]
    [("oneOf", .array
      [record [("status", tag "ok"), ("result", ref "ResponsePayload")],
       record [("status", tag "error"), ("message", text)]])]

def all : Json :=
  node [("config", configuration), ("request", request), ("response", response)]

end ScriptLens.Schema
