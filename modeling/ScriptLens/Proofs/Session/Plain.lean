import ScriptLens.Session.Operation

namespace ScriptLens

/-- A session without a worker and without kept answers. All that it has is the settings and the
sources of the open buffers. -/
structure PlainSession where
  settings : Settings
  buffers : Table Source := .empty

namespace PlainSession

def start (config : Configuration) : PlainSession :=
  { settings := .ofConfiguration config }

def withSettings (p : PlainSession) (settings : Settings) : PlainSession :=
  { p with settings }

def openBuffer (p : PlainSession) (file : String) (version : Version) (text : String) :
    PlainSession :=
  { p with buffers := p.buffers.insert file ⟨text, version⟩ }

def sync (p : PlainSession) (file : String) (version : Version) (text : String) :
    Except SessionError Reply × PlainSession :=
  match p.buffers.get? file with
  | some current =>
    if version ≤ current.version then (.error (.staleVersion file current.version version), p)
    else (.ok .done, p.openBuffer file version text)
  | none => (.ok .done, p.openBuffer file version text)

def builtin (p : PlainSession) : Builtin :=
  .ofTarget p.settings.compiler.target

def files (p : PlainSession) : List String :=
  p.buffers.keys ++ p.settings.libs.keys ++ [p.builtin.name]

def source? (p : PlainSession) (file : String) : Option Source :=
  (p.buffers.get? file).or (p.settings.libs.get? file)

def version? (p : PlainSession) (file : String) : Option Version :=
  match p.source? file with
  | some source => some source.version
  | none => if file = p.builtin.name then some Builtin.version else none

/-- The text of builtin declarations is there to be read whether they are in effect or not. -/
def text? (p : PlainSession) (file : String) : Option String :=
  match p.source? file with
  | some source => some source.text
  | none => (Builtin.ofName? file).map (·.text)

def tree (parser : Parser) (p : PlainSession) (file : String) (source : Source) : ParsedSource :=
  let dialect := Dialect.ofFileName file p.settings.compiler.allowJs
  ⟨file, some source.version, dialect, source.text, parser dialect.grammar source.text⟩

def tree? (parser : Parser) (p : PlainSession) (file : String) : Option ParsedSource :=
  match p.version? file, p.text? file with
  | some version, some text => some (p.tree parser file ⟨text, version⟩)
  | _, _ => none

def outline (parser : Parser) (p : PlainSession) (file : String) : List Outline.Entry :=
  match p.tree? parser file with
  | some t => Outline.ofSource t
  | none => []

def constants (parser : Parser) (p : PlainSession) (t : ParsedSource) : Constants :=
  .ofSources (p.settings.libs.entries.map (fun (path, lib) => p.tree parser path lib) ++ [t])

def references (parser : Parser) (p : PlainSession) (file : String) (roots : List String) :
    References :=
  match p.tree? parser file with
  | some t => .ofSource (.ofConstants (p.constants parser t)) roots t
  | none => .ofRoots roots

def syntaxErrors (parser : Parser) (p : PlainSession) (file : String) : List Diagnostic :=
  match p.settings.diagnostics.noSyntaxValidation, p.tree? parser file with
  | false, some t => Diagnostic.ofSource t
  | _, _ => []

def step (parser : Parser) (p : PlainSession) : Operation → Except SessionError Reply × PlainSession
  | .sync file version text => p.sync file version text
  | .close file =>
    (.ok (.flag (p.buffers.contains file)), { p with buffers := p.buffers.erase file })
  | .files => (.ok (.answer (.files p.files)), p)
  | .version file => (.ok (.answer (.version (p.version? file))), p)
  | .text file => (.ok (.answer (.text (p.text? file))), p)
  | .outline file => (.ok (.answer (.outline (p.outline parser file))), p)
  | .references file roots => (.ok (.answer (.references (p.references parser file roots))), p)
  | .diagnostics file => (.ok (.answer (.diagnostics (p.syntaxErrors parser file))), p)
  | .setCompiler options => (.ok .done, p.withSettings (p.settings.setCompiler options))
  | .setDiagnostics options => (.ok .done, p.withSettings (p.settings.setDiagnostics options))
  | .addLib clock content path =>
    match p.settings.addLib clock content path with
    | .ok (handle, settings) => (.ok (.handle handle), p.withSettings settings)
    | .error e => (.error e, p)
  | .dispose handle =>
    let (removed, settings) := p.settings.dispose handle
    (.ok (.flag removed), p.withSettings settings)
  | .setLibs libs => (.ok .done, p.withSettings (p.settings.setLibs libs))
  | .retire => (.ok .done, p)

end PlainSession

abbrev Event := Operation × Except SessionError Reply

def trace {σ : Type} (step : σ → Operation → Except SessionError Reply × σ) (s : σ) :
    List Operation → List Event
  | [] => []
  | op :: ops => (op, (step s op).1) :: trace step (step s op).2 ops

def Operation.asksWorker : Operation → Bool
  | .files | .version _ | .text _ | .outline _ | .references .. => true
  | _ => false

def askedBeforeClose (file : String) : List Event → Bool
  | [] => true
  | (op, reply) :: rest =>
    op ≠ .close file && (op.asksWorker && reply.isOk || askedBeforeClose file rest)

/-- Between an accepted sync of a file and its next close, some request is answered. -/
def attended : List Event → Bool
  | [] => true
  | (.sync file _ _, .ok _) :: rest => askedBeforeClose file rest && attended rest
  | _ :: rest => attended rest

theorem attended_tail {e : Event} {rest : List Event} (h : attended (e :: rest) = true) :
    attended rest = true := by
  obtain ⟨op, reply⟩ := e
  cases op with
  | sync =>
      cases reply with
      | ok => exact (Bool.and_eq_true_iff.1 h).2
      | error => exact h
  | close | files | version | text | outline | references | diagnostics => exact h
  | setCompiler | setDiagnostics | addLib | dispose | setLibs | retire => exact h

end ScriptLens
