import ScriptLens.Diagnostic.Basic
import ScriptLens.Source.Parsed

namespace ScriptLens

namespace Diagnostic

/-- The character that a node starts at within its line. If the line's start falls inside a
character, bytes stand in for characters. -/
def characterOf (source : String) (n : Node) : UInt64 :=
  let start := n.info.start
  let lineStart := if start < n.info.column then 0 else start - n.info.column
  match Text.slice? lineStart.toNat start.toNat source.toList with
  | some before => before.length.toUInt64
  | none => n.info.column

def ofNode (source : String) (message : String) (n : Node) : Diagnostic :=
  { message
    category := .error
    start := n.info.start
    length := n.info.stop - n.info.start
    line := n.info.row
    character := characterOf source n }

def message? (n : Node) : Option String :=
  if n.info.isError then some "Syntax error."
  else if n.info.missing then some ("'" ++ n.info.type ++ "' expected.")
  else none

def isOpen (n : Node) : Bool :=
  (message? n).isNone && n.info.hasError

def reportNode (source : String) (found : Array Diagnostic) (n : Node) : Array Diagnostic :=
  match message? n with
  | some message => found.push (ofNode source message n)
  | none => found

def ofSource (t : ParsedSource) : List Diagnostic :=
  if t.hasErrors then (Node.walk (fun n _ => isOpen n) (reportNode t.text) [t.root] #[]).toList
  else []

end Diagnostic

end ScriptLens
