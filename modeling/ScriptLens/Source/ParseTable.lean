import ScriptLens.Json.Basic
import ScriptLens.Source.Parsed
import ScriptLens.Text.Line
import ScriptLens.Tree.Rows

namespace ScriptLens

structure ParseTable where
  entries : List (Grammar × String × Node)

def Grammar.all : List (String × Grammar) :=
  [("ts", typescript), ("tsx", tsx), ("js", javascript)]

def Field.all : List (String × Field) :=
  [("name", name), ("body", body), ("value", value), ("key", key), ("left", left),
   ("function", function), ("object", object), ("property", property), ("index", index)]

namespace Row

def parentOf? : Json → Option (Option Nat)
  | .number n => if n.negative then some none else n.toNat?.map some
  | _ => none

def fieldsOf (names : String) : List Field :=
  (Text.splitOn ',' names.toList).filterMap fun name => Field.all.lookup (.ofList name)

def ofJson? : Json → Option Row
  | .array [parent, type, start, stop, row, column, flags, fields] => do
    let flags := (← flags.asString?).toList
    return {
      parent := ← parentOf? parent
      info := {
        type := ← type.asString?
        start := ← start.asUInt64?
        stop := ← stop.asUInt64?
        row := ← row.asUInt64?
        column := ← column.asUInt64?
        named := flags.contains 'n'
        isError := flags.contains 'e'
        missing := flags.contains 'm'
        hasError := flags.contains 'h'
        fields := fieldsOf (← fields.asString?) } }
  | _ => none

end Row

namespace ParseTable

def entry? (j : Json) : Option (Grammar × String × Node) := do
  let fields ← j.fields? ["grammar", "text", "nodes"]
  let grammar ← Grammar.all.lookup (← (← fields.lookup "grammar").asString?)
  let text ← (← fields.lookup "text").asString?
  let rows ← (← fields.lookup "nodes").asList? Row.ofJson?
  return (grammar, text, ← Node.ofRows? rows)

def ofJson? (j : Json) : Option ParseTable :=
  (j.asList? entry?).map ParseTable.mk

def emptyTree : Node :=
  .mk ⟨"program", 0, 0, 0, 0, true, false, false, false, []⟩ []

def parser (t : ParseTable) : Parser := fun grammar text =>
  match t.entries.find? fun e => e.1 = grammar ∧ e.2.1 = text with
  | some (_, _, root) => root
  | none => emptyTree

end ParseTable

end ScriptLens
