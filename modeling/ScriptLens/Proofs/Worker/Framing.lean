import ScriptLens.CommandLine.Run
import ScriptLens.Proofs.Json.Control
import ScriptLens.Proofs.Text.Line
import ScriptLens.Proofs.Wire.Message

namespace ScriptLens

def Text.written (lines : List String) : String :=
  String.join (lines.map (· ++ "\n"))

def Response.readLines (text : String) : List (Option Response) :=
  (Text.splitLines text.toList).map fun line => (Json.read? (.ofList line)).bind ofJson?

theorem Text.splitLines_written {lines : List String} (h : ∀ line ∈ lines, '\n' ∉ line.toList) :
    splitLines (written lines).toList = lines.map String.toList := by
  have hlines : ∀ line ∈ lines.map String.toList, '\n' ∉ line := by
    simpa using h
  rw [← splitLines_flatMap hlines]
  simp [written, String.toList_join, List.flatMap_map]

theorem Response.clean_compact (r : Response) : Clean r.toJson.compact.toList := by
  rw [Json.compact, String.toList_ofList]
  exact Json.clean_compactChars r.toJson

theorem Response.newline_not_mem_compact (r : Response) : '\n' ∉ r.toJson.compact.toList := by
  intro h
  exact absurd (r.clean_compact _ h) (by decide)

theorem Response.readLines_written (responses : List Response) :
    readLines (Text.written (responses.map (·.toJson.compact))) = responses.map some := by
  have hlines : ∀ line ∈ responses.map (·.toJson.compact), '\n' ∉ line.toList := by
    intro line hline
    obtain ⟨r, -, rfl⟩ := List.mem_map.1 hline
    exact r.newline_not_mem_compact
  rw [readLines, Text.splitLines_written hlines, List.map_map, List.map_map]
  apply List.map_congr_left
  intro r _
  simp [Json.read?_compact, ofJson?_toJson]

namespace Worker

def asked (lines : List String) : List String :=
  lines.filter fun line => decide (Text.trim line.toList ≠ [])

variable {parser : Parser} {complaint : Complaint} {w : Worker}

theorem isBlankLine_iff {line : String} : isBlankLine line = true ↔ Text.trim line.toList = [] :=
  Text.trim_eq_nil_iff.symm

theorem asked_eq (lines : List String) : asked lines = lines.filter (!isBlankLine ·) := by
  simp only [asked, ne_eq, ← isBlankLine_iff, decide_not, Bool.decide_eq_true]

theorem serve_eq (lines : List String) :
    w.serve parser complaint lines =
      (w.answerLines parser complaint (asked lines)).1.map (·.toJson.compact) := by
  rw [serve, asked_eq]

theorem answerLines_getElem? (lines : List String) (i : Nat) :
    (w.answerLines parser complaint lines).1[i]? = lines[i]?.map fun line =>
      ((w.answerLines parser complaint (lines.take i)).2.answerLine parser complaint line).1 := by
  induction lines generalizing w i with
  | nil => rfl
  | cons line lines ih =>
      cases i with
      | zero => rfl
      | succ i => exact ih i

theorem length_answerLines (lines : List String) :
    (w.answerLines parser complaint lines).1.length = lines.length := by
  induction lines generalizing w with
  | nil => rfl
  | cons line lines ih => exact congrArg (· + 1) ih

/-- Every line that is not blank has one line written for it, in the same order, and what is
written is read back as the responses. -/
theorem serve_writes_one_line_each (parser : Parser) (complaint : Complaint) :
    (∀ r : Response, ∀ c ∈ r.toJson.compact.toList, 0x20 ≤ c.toNat) ∧
    (∀ responses : List Response,
      Response.readLines (Text.written (responses.map (·.toJson.compact))) =
        responses.map some) ∧
    (∀ (w : Worker) (lines : List String),
      (w.serve parser complaint lines).length = (asked lines).length ∧
      (∀ i, (w.serve parser complaint lines)[i]? = (asked lines)[i]?.map fun line =>
        ((w.answerLines parser complaint ((asked lines).take i)).2.answerLine parser complaint
          line).1.toJson.compact) ∧
      Response.readLines (Text.written (w.serve parser complaint lines)) =
        (w.answerLines parser complaint (asked lines)).1.map some) ∧
    ∀ (config : Configuration) (input : String),
      Response.readLines (CommandLine.serveText parser complaint config input) =
        ((start config).answerLines parser complaint
          (asked ((Text.lines input.toList).map .ofList))).1.map some := by
  have hserve : ∀ (w : Worker) (lines : List String),
      Response.readLines (Text.written (w.serve parser complaint lines)) =
        (w.answerLines parser complaint (asked lines)).1.map some := by
    intro w lines
    rw [serve_eq, Response.readLines_written]
  refine ⟨Response.clean_compact, Response.readLines_written,
    fun w lines => ⟨?_, fun i => ?_, hserve w lines⟩, fun config input => hserve (start config) _⟩
  · rw [serve_eq, List.length_map, length_answerLines]
  · rw [serve_eq, List.getElem?_map, answerLines_getElem?, Option.map_map]
    rfl

end Worker

end ScriptLens
