import ScriptLens.Wire.Message
import ScriptLens.Worker.Basic

namespace ScriptLens.Worker

/-- What a reader of requests has to say about a line that it cannot read. -/
abbrev Complaint := String → String

def malformed (complaint : Complaint) (line : String) : Response :=
  .error ("Malformed request: " ++ complaint line)

def answerLine (parser : Parser) (complaint : Complaint) (w : Worker) (line : String) :
    Response × Worker :=
  match Request.read? line with
  | some request => w.respond parser request
  | none => (malformed complaint line, w)

def answerLines (parser : Parser) (complaint : Complaint) :
    Worker → List String → List Response × Worker
  | w, [] => ([], w)
  | w, line :: rest =>
    let (response, w) := w.answerLine parser complaint line
    let (responses, w) := answerLines parser complaint w rest
    (response :: responses, w)

def isBlankLine (line : String) : Bool :=
  line.toList.all Text.isBlank

def serve (parser : Parser) (complaint : Complaint) (w : Worker) (lines : List String) :
    List String :=
  (w.answerLines parser complaint (lines.filter (!isBlankLine ·))).1.map (·.toJson.compact)

end ScriptLens.Worker
