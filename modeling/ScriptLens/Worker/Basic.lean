import ScriptLens.Catalog.Basic
import ScriptLens.Diagnostic.Collect
import ScriptLens.Outline.Build
import ScriptLens.Reference.Collect
import ScriptLens.Worker.Message

namespace ScriptLens

structure Worker where
  catalog : Catalog
  diagnostics : DiagnosticsOptions
deriving DecidableEq

namespace Worker

def start (config : Configuration) : Worker :=
  { catalog := { options := config.compiler }, diagnostics := config.diagnostics }

def parsed? (parser : Parser) (w : Worker) (file : String) : Option ParsedSource :=
  match w.catalog.version? file, w.catalog.text? file with
  | some version, some text =>
    some (.parse parser file (some version) (w.catalog.dialect file) text)
  | _, _ => none

def outline (parser : Parser) (w : Worker) (file : String) : List Outline.Entry :=
  ((w.parsed? parser file).map Outline.ofSource).getD []

def constants (parser : Parser) (w : Worker) (t : ParsedSource) : Constants :=
  .ofSources (w.catalog.auxiliary.keys.filterMap (w.parsed? parser) ++ [t])

def references (parser : Parser) (w : Worker) (file : String) (roots : List String) : References :=
  match w.parsed? parser file with
  | some t => .ofSource (.ofConstants (w.constants parser t)) roots t
  | none => .ofRoots roots

def syntaxErrors (parser : Parser) (w : Worker) (file : String) : List Diagnostic :=
  if w.diagnostics.noSyntaxValidation then []
  else ((w.parsed? parser file).map Diagnostic.ofSource).getD []

def change (w : Worker) : Except CatalogError Catalog → Response × Worker
  | .ok catalog => (.ok .ack, { w with catalog })
  | .error e => (.error e.message, w)

def respond (parser : Parser) (w : Worker) : Request → Response × Worker
  | .syncBuffer file version text => w.change (w.catalog.sync file version text)
  | .closeBuffer file => w.change (.ok (w.catalog.close file))
  | .syncLibs libs => w.change (w.catalog.setAuxiliary libs)
  | .updateOptions options => w.change (.ok (w.catalog.setOptions options))
  | .listFiles => (.ok (.files w.catalog.files), w)
  | .version file => (.ok (.version (w.catalog.version? file)), w)
  | .text file => (.ok (.text (w.catalog.text? file)), w)
  | .outline file => (.ok (.outline (w.outline parser file)), w)
  | .references file roots => (.ok (.references (w.references parser file roots)), w)
  | .diagnostics file => (.ok (.diagnostics (w.syntaxErrors parser file)), w)

end Worker

end ScriptLens
