import ScriptLens.Source.Parsed
import ScriptLens.Text.Quoted

namespace ScriptLens.ParsedSource

def versionSummary : Option Version → String
  | some v => "Some(ScriptVersion(" ++ v.text ++ "))"
  | none => "None"

def dialectSummary : Dialect → String
  | .ts => "Ts"
  | .tsx => "Tsx"
  | .js => "Js"
  | .jsx => "Jsx"

def summary (t : ParsedSource) : String :=
  "SyntaxTree \x7b file_name: " ++ .ofList (Text.quoted t.file.toList)
    ++ ", version: " ++ versionSummary t.version
    ++ ", kind: " ++ dialectSummary t.dialect
    ++ ", len: " ++ t.text.utf8ByteSize.repr ++ " \x7d"

end ScriptLens.ParsedSource
