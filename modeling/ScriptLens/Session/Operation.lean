import ScriptLens.Session.Basic

namespace ScriptLens

inductive Operation where
  | sync (file : String) (version : Version) (text : String)
  | close (file : String)
  | files
  | version (file : String)
  | text (file : String)
  | outline (file : String)
  | references (file : String) (roots : List String)
  | diagnostics (file : String)
  | setCompiler (options : CompilerOptions)
  | setDiagnostics (options : DiagnosticsOptions)
  | addLib (clock : Nat) (content : String) (path : Option String)
  | dispose (handle : LibHandle)
  | setLibs (libs : List (String × String))
  | retire
deriving DecidableEq

inductive Reply where
  | done
  | flag (b : Bool)
  | handle (h : LibHandle)
  | answer (payload : Payload)
deriving DecidableEq

namespace Session

def step (parser : Parser) (s : Session) : Operation → Except SessionError Reply × Session
  | .sync file version text =>
    let (result, s) := s.sync parser file version text
    (result.map fun _ => .done, s)
  | .close file =>
    let (wasOpen, s) := s.close parser file
    (.ok (.flag wasOpen), s)
  | .files =>
    let (result, s) := s.files parser
    (result.map (.answer ∘ .files), s)
  | .version file =>
    let (result, s) := s.version parser file
    (result.map (.answer ∘ .version), s)
  | .text file =>
    let (result, s) := s.text parser file
    (result.map (.answer ∘ .text), s)
  | .outline file =>
    let (result, s) := s.outline parser file
    (result.map (.answer ∘ .outline), s)
  | .references file roots =>
    let (result, s) := s.references parser file roots
    (result.map (.answer ∘ .references), s)
  | .diagnostics file =>
    let (result, s) := s.diagnostics parser file
    (result.map (.answer ∘ .diagnostics), s)
  | .setCompiler options => (.ok .done, s.withSettings (s.settings.setCompiler options))
  | .setDiagnostics options => (.ok .done, s.withSettings (s.settings.setDiagnostics options))
  | .addLib clock content path =>
    match s.settings.addLib clock content path with
    | .ok (handle, settings) => (.ok (.handle handle), s.withSettings settings)
    | .error e => (.error e, s)
  | .dispose handle =>
    let (removed, settings) := s.settings.dispose handle
    (.ok (.flag removed), s.withSettings settings)
  | .setLibs libs => (.ok .done, s.withSettings (s.settings.setLibs libs))
  | .retire => (.ok .done, s.retire)

def run (parser : Parser) (s : Session) (ops : List Operation) : Session :=
  ops.foldl (fun s op => (s.step parser op).2) s

end Session

end ScriptLens
