import ScriptLens.Source.Dialect
import ScriptLens.Source.Version
import ScriptLens.Tree.Walk

namespace ScriptLens

abbrev Parser := Grammar → String → Node

structure ParsedSource where
  file : String
  version : Option Version
  dialect : Dialect
  text : String
  root : Node

namespace ParsedSource

def parse (parser : Parser) (file : String) (version : Option Version) (dialect : Dialect)
    (text : String) : ParsedSource :=
  ⟨file, version, dialect, text, parser dialect.grammar text⟩

def hasErrors (t : ParsedSource) : Bool :=
  t.root.info.hasError

end ParsedSource

end ScriptLens
