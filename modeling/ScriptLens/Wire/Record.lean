import ScriptLens.Outline.Forest
import ScriptLens.Reference.Map
import ScriptLens.Wire.Choice

namespace ScriptLens

def Version.toJson (v : Version) : Json := .string v.text

def Version.ofJson? : Json → Option Version
  | .string s => (Version.read s).toOption
  | j => j.asUInt64?.map Version.mk

def Json.required? {α : Type} (fields : List (String × Json)) (name : String)
    (value? : Json → Option α) : Option α :=
  (fields.lookup name).bind value?

def Json.optional? {α : Type} (fields : List (String × Json)) (name : String)
    (value? : Json → Option α) (default : α) : Option α :=
  match fields.lookup name with
  | some j => value? j
  | none => some default

/-- Each member of an object, decoded; of members with one key the last stays. -/
def Json.asDict? {α : Type} (value? : Json → Option α) : Json → Option (Dict α)
  | object members => (members.mapM fun m => (value? m.2).map (m.1, ·)).map Dict.ofList
  | _ => none

def Dict.toJson {α : Type} (value : α → Json) (d : Dict α) : Json :=
  .object (d.entries.map fun (key, a) => (key, value a))

def NameSet.toJson (names : NameSet) : Json := .strings names.keys

def NameSet.ofJson? (j : Json) : Option NameSet :=
  (j.asList? Json.asString?).map NameSet.ofNames

def References.toJson (r : References) : Json := r.byRoot.toJson NameSet.toJson

def References.ofJson? (j : Json) : Option References :=
  (j.asDict? NameSet.ofJson?).map References.mk

def Source.toJson (s : Source) : Json :=
  .object [("content", .string s.text), ("version", s.version.toJson)]

def Source.ofJson? (j : Json) : Option Source := do
  let fields ← j.fields? ["content", "version"]
  return {
    text := ← Json.required? fields "content" Json.asString?
    version := ← Json.required? fields "version" Version.ofJson? }

namespace Outline

def Entry.toJson (e : Entry) : Json :=
  .object
    [("name", .string e.name), ("kind", e.construct.toJson), ("ordinal", .uint32 e.ordinal),
     ("line", .uint64 e.line), ("indentAmount", .uint64 e.indent)]

def Entry.ofJson? (kept : Bool) (j : Json) : Option Entry := do
  let fields ← j.fields? ["name", "kind", "ordinal", "line", "indentAmount"]
  return {
    name := ← Json.required? fields "name" Json.asString?
    construct := ← Json.required? fields "kind" (Construct.ofJson? kept)
    ordinal := ← Json.required? fields "ordinal" Json.asUInt32?
    line := ← Json.required? fields "line" Json.asUInt64?
    indent := ← Json.required? fields "indentAmount" Json.asUInt64? }

mutual

def Branch.toJson : Branch → Json
  | .mk entry children =>
    .object [("entry", entry.toJson), ("children", .array (toJsonAll children))]

def Branch.toJsonAll : List Branch → List Json
  | [] => []
  | b :: bs => b.toJson :: toJsonAll bs

end

def Branch.ofJson? : Nat → Json → Option Branch
  | 0, _ => none
  | depth + 1, j => do
    let fields ← j.fields? ["entry", "children"]
    let entry ← Json.required? fields "entry" (Entry.ofJson? false)
    let children ← Json.required? fields "children" (Json.asList? (ofJson? depth))
    return .mk entry children

/-- How deep branches may nest: each takes two levels of the document, and the parts of the
innermost one a third. -/
def Branch.maxDepth : Nat := (Json.maxDepth - 1) / 2

end Outline

def Diagnostic.toJson (d : Diagnostic) : Json :=
  .object
    [("message", .string d.message), ("category", d.category.toJson),
     ("start", .uint64 d.start), ("length", .uint64 d.length),
     ("line", .uint64 d.line), ("character", .uint64 d.character)]

def Diagnostic.ofJson? (kept : Bool) (j : Json) : Option Diagnostic := do
  let fields ← j.fields? ["message", "category", "start", "length", "line", "character"]
  return {
    message := ← Json.required? fields "message" Json.asString?
    category := ← Json.required? fields "category" (Category.ofJson? kept)
    start := ← Json.required? fields "start" Json.asUInt64?
    length := ← Json.required? fields "length" Json.asUInt64?
    line := ← Json.required? fields "line" Json.asUInt64?
    character := ← Json.required? fields "character" Json.asUInt64? }

def CompilerOptions.toJson (o : CompilerOptions) : Json :=
  .object [("target", o.target.toJson), ("allowJs", .bool o.allowJs)]

def CompilerOptions.ofJson? (kept : Bool) (j : Json) : Option CompilerOptions := do
  let fields ← j.fields? ["target", "allowJs"]
  let default : CompilerOptions := {}
  return {
    target := ← Json.optional? fields "target" (Target.ofJson? kept) default.target
    allowJs := ← Json.optional? fields "allowJs" Json.asBool? default.allowJs }

def DiagnosticsOptions.toJson (o : DiagnosticsOptions) : Json :=
  .object [("noSyntaxValidation", .bool o.noSyntaxValidation)]

def DiagnosticsOptions.ofJson? (j : Json) : Option DiagnosticsOptions := do
  let fields ← j.fields? ["noSyntaxValidation"]
  let default : DiagnosticsOptions := {}
  return {
    noSyntaxValidation :=
      ← Json.optional? fields "noSyntaxValidation" Json.asBool? default.noSyntaxValidation }

def Configuration.toJson (c : Configuration) : Json :=
  .object
    [("compilerOptions", c.compiler.toJson), ("diagnosticsOptions", c.diagnostics.toJson),
     ("workerMaxIdleMs", .uint64 c.maxIdleMs), ("eagerModelSync", .bool c.eagerSync)]

def Configuration.ofJson? (j : Json) : Option Configuration := do
  let fields ← j.fields?
    ["compilerOptions", "diagnosticsOptions", "workerMaxIdleMs", "eagerModelSync"]
  let default : Configuration := {}
  return {
    compiler := ←
      Json.optional? fields "compilerOptions" (CompilerOptions.ofJson? false) default.compiler
    diagnostics := ←
      Json.optional? fields "diagnosticsOptions" DiagnosticsOptions.ofJson? default.diagnostics
    maxIdleMs := ← Json.optional? fields "workerMaxIdleMs" Json.asUInt64? default.maxIdleMs
    eagerSync := ← Json.optional? fields "eagerModelSync" Json.asBool? default.eagerSync }

end ScriptLens
