import ScriptLens.Source.ParseTable
import ScriptLens.Worker.Line

namespace ScriptLens

def Request.isRead : Request → Bool
  | listFiles | version _ | text _ | outline _ | references .. | diagnostics _ => true
  | syncBuffer .. | closeBuffer _ | syncLibs _ | updateOptions _ => false

namespace Worker

def exchanges (parser : Parser) (complaint : Complaint) (w : Worker) (lines : List String) :
    List (String × Response) :=
  lines.zip (w.answerLines parser complaint lines).1

def isIdle (line : String) (response : Response) : Bool :=
  match Request.read? line, response with
  | none, _ => true
  | some _, .error _ => true
  | some request, .ok _ => request.isRead

/-- `kept` is what remains of some exchanges when any of the idle ones are taken out. -/
inductive Thinned : List (String × Response) → List (String × Response) → Prop
  | nil : Thinned [] []
  | keep {rest kept : List (String × Response)} (e : String × Response) (h : Thinned rest kept) :
      Thinned (e :: rest) (e :: kept)
  | drop {rest kept : List (String × Response)} (e : String × Response)
      (hidle : isIdle e.1 e.2 = true) (h : Thinned rest kept) : Thinned (e :: rest) kept

variable {parser : Parser} {complaint : Complaint} {w : Worker}

theorem respond_of_isRead {request : Request} (h : request.isRead = true) :
    (w.respond parser request).2 = w := by
  cases request with
  | listFiles | version | text | outline | references | diagnostics => rfl
  | syncBuffer | closeBuffer | syncLibs | updateOptions => cases h

theorem change_of_error {result : Except CatalogError Catalog} {m : String}
    (h : (w.change result).1 = .error m) : (w.change result).2 = w := by
  cases result with
  | ok catalog => cases h
  | error e => rfl

theorem respond_of_error {request : Request} {m : String}
    (h : (w.respond parser request).1 = .error m) : (w.respond parser request).2 = w := by
  cases request with
  | syncBuffer | closeBuffer | syncLibs | updateOptions => exact change_of_error h
  | listFiles | version | text | outline | references | diagnostics => rfl

theorem answerLine_of_some {line : String} {request : Request}
    (h : Request.read? line = some request) :
    w.answerLine parser complaint line = w.respond parser request := by
  rw [answerLine, h]

theorem answerLine_of_none {line : String} (h : Request.read? line = none) :
    w.answerLine parser complaint line = (malformed complaint line, w) := by
  rw [answerLine, h]

theorem answerLine_of_isIdle {line : String}
    (h : isIdle line (w.answerLine parser complaint line).1 = true) :
    (w.answerLine parser complaint line).2 = w := by
  cases hread : Request.read? line with
  | none => rw [answerLine_of_none hread]
  | some request =>
      rw [answerLine_of_some hread] at h ⊢
      cases hresponse : (w.respond parser request).1 with
      | error m => exact respond_of_error hresponse
      | ok payload =>
          simp only [isIdle, hread, hresponse] at h
          exact respond_of_isRead h

theorem answerLines_cons (line : String) (rest : List String) :
    w.answerLines parser complaint (line :: rest) =
      ((w.answerLine parser complaint line).1 ::
          ((w.answerLine parser complaint line).2.answerLines parser complaint rest).1,
        ((w.answerLine parser complaint line).2.answerLines parser complaint rest).2) := rfl

theorem exchanges_cons (line : String) (rest : List String) :
    w.exchanges parser complaint (line :: rest) = (line, (w.answerLine parser complaint line).1) ::
      (w.answerLine parser complaint line).2.exchanges parser complaint rest := rfl

theorem answerLines_thinned {lines : List String} {kept : List (String × Response)}
    (h : Thinned (w.exchanges parser complaint lines) kept) :
    w.answerLines parser complaint (kept.map (·.1)) =
      (kept.map (·.2), (w.answerLines parser complaint lines).2) := by
  induction lines generalizing w kept with
  | nil =>
      cases h
      rfl
  | cons line rest ih =>
      rw [exchanges_cons] at h
      cases h with
      | keep _ h => rw [List.map_cons, answerLines_cons, ih h, answerLines_cons, List.map_cons]
      | drop _ hidle h =>
          rw [answerLines_cons]
          rw [answerLine_of_isIdle hidle] at h ⊢
          exact ih h

/-- If any of the idle lines are taken out of what a worker is given, the other lines have the same
responses, and the same files are listed in the end. -/
theorem idle_lines_leave_no_trace (parser : Parser) (complaint : Complaint)
    (config : Configuration) (lines : List String) {kept : List (String × Response)}
    (h : Thinned ((start config).exchanges parser complaint lines) kept) :
    ((start config).answerLines parser complaint (kept.map (·.1))).1 = kept.map (·.2) ∧
    ((start config).answerLines parser complaint (kept.map (·.1))).2.catalog.files =
      ((start config).answerLines parser complaint lines).2.catalog.files := by
  rw [answerLines_thinned h]
  exact ⟨rfl, rfl⟩

/-- An older version and a text that is no request are taken out. -/
theorem idle_lines_leave_no_trace_stale :
    let parser := ParseTable.parser ⟨[]⟩
    let complaint (line : String) := "expected value, got " ++ line
    let sync := (Request.syncBuffer "a.ts" ⟨2⟩ "").toJson.compact
    let older := (Request.syncBuffer "a.ts" ⟨1⟩ "").toJson.compact
    let files := Request.listFiles.toJson.compact
    let kept : List (String × Response) :=
      [(sync, .ok .ack), (files, .ok (.files ["a.ts", "defaultLib:lib.es6.d.ts"]))]
    Thinned ((start {}).exchanges parser complaint [sync, "not a request", older, files]) kept ∧
    ((start {}).answerLines parser complaint [sync, files]).1 = kept.map (·.2) ∧
    ((start {}).answerLines parser complaint [sync, files]).2.catalog.files =
      ((start {}).answerLines parser complaint
        [sync, "not a request", older, files]).2.catalog.files := by
  intro parser complaint sync older files kept
  have hsync : Request.read? sync = some (.syncBuffer "a.ts" ⟨2⟩ "") := by decide +kernel
  have hnone : Request.read? "not a request" = none := by decide +kernel
  have holder : Request.read? older = some (.syncBuffer "a.ts" ⟨1⟩ "") := by decide +kernel
  have hfiles : Request.read? files = some .listFiles := by decide +kernel
  clear_value sync older files
  let w := ((start {}).respond parser (.syncBuffer "a.ts" ⟨2⟩ "")).2
  have hack : (start {}).respond parser (.syncBuffer "a.ts" ⟨2⟩ "") = (.ok .ack, w) := by
    decide +kernel
  have hstale : w.respond parser (.syncBuffer "a.ts" ⟨1⟩ "") =
      (.error "Stale version for a.ts: current 2, got 1", w) := by decide +kernel
  have hlist : w.respond parser .listFiles =
      (.ok (.files ["a.ts", "defaultLib:lib.es6.d.ts"]), w) := by decide +kernel
  have hthinned : Thinned
      ((start {}).exchanges parser complaint [sync, "not a request", older, files]) kept := by
    rw [exchanges_cons, answerLine_of_some hsync, hack, exchanges_cons, answerLine_of_none hnone,
      exchanges_cons, answerLine_of_some holder, hstale, exchanges_cons, answerLine_of_some hfiles,
      hlist]
    refine .keep _ (.drop _ ?_ (.drop _ ?_ (.keep _ .nil)))
    · simp only [isIdle, hnone]
    · simp only [isIdle, holder]
  exact ⟨hthinned, idle_lines_leave_no_trace parser complaint {} _ hthinned⟩

end Worker

end ScriptLens
