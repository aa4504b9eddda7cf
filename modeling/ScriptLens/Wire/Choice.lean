import ScriptLens.Json.Basic
import ScriptLens.Diagnostic.Basic
import ScriptLens.Options
import ScriptLens.Outline.Entry
import ScriptLens.Source.Dialect
import ScriptLens.Source.Origin

namespace ScriptLens

def Json.asChoice? {α : Type} (kept : Bool) (choices : List (String × α)) : Json → Option α
  | string name => choices.lookup name
  | object [(name, null)] => choices.lookup name
  | object [(name, object [])] => if kept then choices.lookup name else none
  | _ => none

def Target.toJson (t : Target) : Json := .string t.label

def Target.ofJson? (kept : Bool) : Json → Option Target :=
  Json.asChoice? kept (("Latest", esNext) :: all.map fun t => (t.label, t))

def Construct.toJson (c : Construct) : Json := .string c.label

def Construct.ofJson? (kept : Bool) : Json → Option Construct :=
  Json.asChoice? kept (all.map fun c => (c.label, c))

def Category.toJson (c : Category) : Json := .string c.label

def Category.ofJson? (kept : Bool) : Json → Option Category :=
  Json.asChoice? kept (all.map fun c => (c.label, c))

def Dialect.toJson (d : Dialect) : Json := .string d.label

def Dialect.ofJson? (kept : Bool) : Json → Option Dialect :=
  Json.asChoice? kept (all.map fun d => (d.label, d))

def Origin.toJson (o : Origin) : Json := .string o.label

def Origin.ofJson? (kept : Bool) : Json → Option Origin :=
  Json.asChoice? kept (all.map fun o => (o.label, o))

end ScriptLens
