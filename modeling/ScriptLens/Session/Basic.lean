import ScriptLens.Session.Cache
import ScriptLens.Session.Settings
import ScriptLens.Worker.Basic

namespace ScriptLens

/-- An open buffer; `synced` if the worker holds this very version. -/
structure Buffer where
  version : Version
  text : String
  synced : Bool
deriving DecidableEq

/-- A worker, and the revision of the settings that it was last sent. -/
structure Running where
  worker : Worker
  revision : Option UInt64
deriving DecidableEq

structure Session where
  settings : Settings
  running : Option Running := none
  buffers : Table Buffer := .empty
  cache : Cache := .empty
  cacheRevision : UInt64
deriving DecidableEq

namespace Session

def start (config : Configuration) : Session :=
  let settings := Settings.ofConfiguration config
  { settings, cacheRevision := settings.revision }

def withSettings (s : Session) (settings : Settings) : Session :=
  { s with settings }

def isRunning (s : Session) : Bool :=
  s.running.isSome

def retire (s : Session) : Session :=
  { s with running := none }

def startWorker (s : Session) : Running × Session :=
  let new : Running := ⟨.start s.settings.toConfiguration, none⟩
  (new, { s with running := some new, buffers := s.buffers.map ({ · with synced := false }) })

def ensureRunning (s : Session) : Running × Session :=
  match s.running with
  | some running => (running, s)
  | none => s.startWorker

/-- Answers do not outlive a change of the settings. -/
def refreshCache (s : Session) : Session :=
  if s.cacheRevision = s.settings.revision then s
  else { s with cache := .empty, cacheRevision := s.settings.revision }

def answerOf : Response → Except SessionError Payload
  | .ok payload => .ok payload
  | .error m => .error (.worker m)

/-- Sends the settings if they have changed. If the extra files are rejected the worker stays with
those it has, and is not sent the same ones again. -/
def pushSettings (parser : Parser) (settings : Settings) (r : Running) :
    Except SessionError Unit × Running :=
  if r.revision = some settings.revision then (.ok (), r)
  else
    let (_, worker) := r.worker.respond parser (.updateOptions settings.compiler)
    let (response, worker) := worker.respond parser (.syncLibs settings.libs)
    ((answerOf response).map fun _ => (), ⟨worker, some settings.revision⟩)

/-- Sends the named buffers in turn. One that is rejected is dropped, and ends the matter. -/
def pushBuffers (parser : Parser) : List String → Worker → Table Buffer →
    Except SessionError Unit × Worker × Table Buffer
  | [], worker, buffers => (.ok (), worker, buffers)
  | file :: rest, worker, buffers =>
    match buffers.get? file with
    | none => pushBuffers parser rest worker buffers
    | some buffer =>
      match worker.respond parser (.syncBuffer file buffer.version buffer.text) with
      | (.ok _, worker) =>
        pushBuffers parser rest worker (buffers.insert file { buffer with synced := true })
      | (.error m, worker) => (.error (.worker m), worker, buffers.erase file)

def pending (buffers : Table Buffer) : List String :=
  (buffers.entries.filter fun e => !e.2.synced).map (·.1)

def settle (parser : Parser) (s : Session) : Except SessionError Running × Session :=
  let (r, s) := s.ensureRunning
  let s := s.refreshCache
  let (result, r) := pushSettings parser s.settings r
  (result.map fun _ => r, { s with running := some r })

def prepare (parser : Parser) (s : Session) : Except SessionError Running × Session :=
  match s.settle parser with
  | (.error e, s) => (.error e, s)
  | (.ok r, s) =>
    let (result, worker, buffers) := pushBuffers parser (pending s.buffers) r.worker s.buffers
    let r := { r with worker }
    (result.map fun _ => r, { s with running := some r, buffers })

def deliver (parser : Parser) (s : Session) (r : Running) (request : Request) :
    Except SessionError Payload × Session :=
  let (response, worker) := r.worker.respond parser request
  (answerOf response, { s with running := some { r with worker } })

def ask (parser : Parser) (s : Session) (request : Request) :
    Except SessionError Payload × Session :=
  match s.prepare parser with
  | (.error e, s) => (.error e, s)
  | (.ok r, s) => s.deliver parser r request

/-- As `ask`, but a buffer's answer is kept and given again while its version stays. -/
def askCached (parser : Parser) (s : Session) (file : String) (query : Query) (request : Request) :
    Except SessionError Payload × Session :=
  match s.prepare parser with
  | (.error e, s) => (.error e, s)
  | (.ok r, s) =>
    match s.buffers.get? file with
    | none => s.deliver parser r request
    | some buffer =>
      let key : CacheKey := ⟨file, buffer.version, query⟩
      match s.cache.get? key with
      | some payload => (.ok payload, s)
      | none =>
        match s.deliver parser r request with
        | (.ok payload, s) => (.ok payload, { s with cache := s.cache.insert key payload })
        | failed => failed

def openBuffer (s : Session) (file : String) (version : Version) (text : String) : Session :=
  { s with
    buffers := s.buffers.insert file ⟨version, text, false⟩
    cache := s.cache.forget file }

/-- Opens a buffer, or replaces the text of one under a greater version. With eager sync it is sent
to the worker at once, and with it all else that is due. -/
def sync (parser : Parser) (s : Session) (file : String) (version : Version) (text : String) :
    Except SessionError Unit × Session :=
  let opened : Except SessionError Unit × Session :=
    let s := s.openBuffer file version text
    if s.settings.eagerSync then
      let (result, s) := s.prepare parser
      (result.map fun _ => (), s)
    else
      (.ok (), s)
  match s.buffers.get? file with
  | some current =>
    if version ≤ current.version then (.error (.staleVersion file current.version version), s)
    else opened
  | none => opened

/-- Closes a buffer, and tells whether it was open. The worker is told if it holds the buffer's
version. -/
def close (parser : Parser) (s : Session) (file : String) : Bool × Session :=
  match s.buffers.get? file with
  | none => (false, s)
  | some buffer =>
    let s := { s with buffers := s.buffers.erase file, cache := s.cache.forget file }
    match s.running with
    | some r =>
      if buffer.synced then
        let (_, worker) := r.worker.respond parser (.closeBuffer file)
        (true, { s with running := some { r with worker } })
      else (true, s)
    | none => (true, s)

def partOf {α : Type} (method : String) (part? : Payload → Option α) :
    Except SessionError Payload → Except SessionError α
  | .error e => .error e
  | .ok payload =>
    match part? payload with
    | some a => .ok a
    | none => .error (.unexpectedResponse method payload.kind)

def files (parser : Parser) (s : Session) : Except SessionError (List String) × Session :=
  let (answer, s) := s.ask parser .listFiles
  (partOf "listFiles" (fun | .files names => some names | _ => none) answer, s)

def version (parser : Parser) (s : Session) (file : String) :
    Except SessionError (Option Version) × Session :=
  let (answer, s) := s.ask parser (.version file)
  (partOf "getScriptVersion" (fun | .version v => some v | _ => none) answer, s)

def text (parser : Parser) (s : Session) (file : String) :
    Except SessionError (Option String) × Session :=
  let (answer, s) := s.ask parser (.text file)
  (partOf "getScriptText" (fun | .text t => some t | _ => none) answer, s)

def outline (parser : Parser) (s : Session) (file : String) :
    Except SessionError (List Outline.Entry) × Session :=
  let (answer, s) := s.askCached parser file .outline (.outline file)
  (partOf "getOutline" (fun | .outline entries => some entries | _ => none) answer, s)

def references (parser : Parser) (s : Session) (file : String) (roots : List String) :
    Except SessionError References × Session :=
  let (answer, s) := s.askCached parser file (.ofRoots roots) (.references file roots)
  (partOf "getReferencedProperties" (fun | .references refs => some refs | _ => none) answer, s)

def diagnostics (parser : Parser) (s : Session) (file : String) :
    Except SessionError (List Diagnostic) × Session :=
  if s.settings.diagnostics.noSyntaxValidation then (.ok [], s)
  else
    let (answer, s) := s.askCached parser file .diagnostics (.diagnostics file)
    (partOf "getSyntacticDiagnostics" (fun | .diagnostics ds => some ds | _ => none) answer, s)

end Session

end ScriptLens
