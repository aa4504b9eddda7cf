import ScriptLens.CommandLine.Run
import ScriptLens.Source.ParseTable

namespace ScriptLens.CommandLine

def filesOf (invocation : Invocation) : List String :=
  invocation.config.toList ++
    match invocation.command with
    | .outline path _ _ | .diagnostics path _ => [path]
    | .refs path _ libs _ => libs ++ [path]
    | .serve | .schema => []

def fileError : IO.Error → FileError
  | .noFileOrDirectory .. => .notFound
  | .inappropriateType .. => .isDirectory
  | _ => .notDirectory

def readFile (path : String) : IO (Except FileError String) := do
  try
    return decodeFile (← IO.FS.readBinFile path)
  catch e =>
    return .error (fileError e)

def readFiles (paths : List String) : IO ReadFile := do
  let found ← paths.mapM fun path => return (path, ← readFile path)
  return fun path => (found.lookup path).getD (.error .notFound)

def readParser : IO Parser := do
  let table? ← match ← IO.getEnv "SCRIPT_PARSES" with
    | some path =>
      match ← readFile path with
      | .ok text => pure ((Json.read? text).bind ParseTable.ofJson?)
      | .error _ => pure none
    | none => pure none
  return (table?.getD ⟨[]⟩).parser

def complaint : Worker.Complaint := fun _ => "not a request"

partial def serveLines (parser : Parser) (input output : IO.FS.Stream) (w : Worker) : IO Unit := do
  let line ← input.getLine
  if line.isEmpty then return
  if Worker.isBlankLine line then serveLines parser input output w
  else
    let (response, w) := w.answerLine parser complaint line
    output.putStr (response.toJson.compact ++ "\n")
    output.flush
    serveLines parser input output w

def finish (outcome : Outcome) : IO UInt32 := do
  (← IO.getStdout).putStr outcome.stdout
  (← IO.getStderr).putStr outcome.stderr
  return outcome.exit.toUInt32

end ScriptLens.CommandLine

open ScriptLens CommandLine in
def main (args : List String) : IO UInt32 := do
  match Arguments.parse args with
  | .error e => finish (usage e)
  | .ok invocation =>
    let read ← readFiles (filesOf invocation)
    let parser ← readParser
    match invocation.command, readConfiguration read invocation.config with
    | .serve, .ok config => do
      serveLines parser (← IO.getStdin) (← IO.getStdout) (.start config)
      return 0
    | _, _ => finish (run parser complaint read "" args)
