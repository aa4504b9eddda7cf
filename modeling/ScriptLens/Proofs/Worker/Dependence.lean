import Mathlib.Data.List.Basic
import ScriptLens.Proofs.Catalog.Sections
import ScriptLens.Proofs.Reference.Roots
import ScriptLens.Worker.Basic

namespace ScriptLens

inductive Question where
  | outline
  | references (roots : List String)
  | diagnostics

namespace Question

def query : Question → Query
  | outline => .outline
  | references roots => .ofRoots roots
  | diagnostics => .diagnostics

def request (file : String) : Question → Request
  | outline => .outline file
  | references roots => .references file roots
  | diagnostics => .diagnostics file

end Question

/-- What the answer to a query rests on, besides the tree of its file. -/
inductive Basis where
  | tree
  | libs (libs : Dict Entered)
  | validation (options : DiagnosticsOptions)
deriving DecidableEq

namespace Worker

def basis (w : Worker) : Query → Basis
  | .outline => .tree
  | .references _ => .libs w.catalog.auxiliary
  | .diagnostics => .validation w.diagnostics

variable {parser : Parser} {w w' : Worker} {file : String}

theorem parsed?_of_buffer {source : Entered} (h : w.catalog.buffers.get? file = some source) :
    w.parsed? parser file = some (.parse parser file (some source.version)
      (.ofFileName file w.catalog.options.allowJs) source.text) := by
  simp [parsed?, Catalog.version?_of_buffer h, Catalog.text?_of_buffer h, Catalog.dialect]

theorem parsed?_of_auxiliary (hw : w.catalog.Apart) {source : Entered}
    (h : w.catalog.auxiliary.get? file = some source) :
    w.parsed? parser file = some (.parse parser file (some source.version)
      (.ofFileName file w.catalog.options.allowJs) source.text) := by
  simp [parsed?, Catalog.version?, Catalog.text?, hw.entered?_of_auxiliary h, Catalog.dialect]

def libTrees (parser : Parser) (allowJs : Bool) (libs : Dict Entered) : List ParsedSource :=
  libs.entries.map fun e =>
    .parse parser e.1 (some e.2.version) (.ofFileName e.1 allowJs) e.2.text

theorem filterMap_parsed? (hw : w.catalog.Apart) :
    w.catalog.auxiliary.keys.filterMap (w.parsed? parser) =
      libTrees parser w.catalog.options.allowJs w.catalog.auxiliary := by
  rw [Dict.keys, List.filterMap_map, libTrees, List.filterMap_eq_map_iff_forall_eq_some]
  intro e he
  exact parsed?_of_auxiliary hw ((Dict.mem_entries_iff _ _ _).1 he)

theorem constants_congr (hw : w.catalog.Apart) (hw' : w'.catalog.Apart)
    (hjs : w.catalog.options.allowJs = w'.catalog.options.allowJs)
    (hlibs : w.catalog.auxiliary = w'.catalog.auxiliary) (t : ParsedSource) :
    w.constants parser t = w'.constants parser t := by
  rw [constants, constants, filterMap_parsed? hw, filterMap_parsed? hw', hjs, hlibs]

theorem references_congr (hw : w.catalog.Apart) (hw' : w'.catalog.Apart)
    (hjs : w.catalog.options.allowJs = w'.catalog.options.allowJs)
    (hlibs : w.catalog.auxiliary = w'.catalog.auxiliary)
    (hparsed : w.parsed? parser file = w'.parsed? parser file) {roots roots' : List String}
    (hroots : ∀ root, root ∈ roots ↔ root ∈ roots') :
    w.references parser file roots = w'.references parser file roots' := by
  unfold references
  rw [← hparsed]
  cases w.parsed? parser file with
  | none => exact References.ofRoots_congr hroots
  | some t =>
      simp only [constants_congr hw hw' hjs hlibs t]
      exact References.ofSource_congr _ hroots t

/-- Two workers with the same options that hold the same source of a file answer a question about it
alike, if they also agree on what the answer rests on. -/
theorem respond_congr (hw : w.catalog.Apart) (hw' : w'.catalog.Apart)
    (hoptions : w.catalog.options = w'.catalog.options) {source : Entered}
    (hfile : w.catalog.buffers.get? file = some source)
    (hfile' : w'.catalog.buffers.get? file = some source) {q q' : Question}
    (hquery : q.query = q'.query) (hbasis : w.basis q.query = w'.basis q.query) :
    (w.respond parser (q.request file)).1 = (w'.respond parser (q'.request file)).1 := by
  have hparsed : w.parsed? parser file = w'.parsed? parser file := by
    rw [parsed?_of_buffer hfile, parsed?_of_buffer hfile', hoptions]
  cases q with
  | outline =>
      cases q' with
      | outline => simp only [Question.request, respond, outline, hparsed]
      | references _ | diagnostics => cases hquery
  | references roots =>
      cases q' with
      | references roots' =>
          have hrefs := references_congr hw hw' (by rw [hoptions]) (Basis.libs.inj hbasis) hparsed
            (Query.mem_iff_of_ofRoots_eq hquery)
          simp only [Question.request, respond, hrefs]
      | outline | diagnostics => cases hquery
  | diagnostics =>
      cases q' with
      | diagnostics =>
          have hoff : w.diagnostics = w'.diagnostics := Basis.validation.inj hbasis
          simp only [Question.request, respond, syntaxErrors, hparsed, hoff]
      | outline | references _ => cases hquery

theorem outline_of_buffer {source : Entered} (h : w.catalog.buffers.get? file = some source) :
    w.outline parser file = Outline.ofSource (.parse parser file (some source.version)
      (.ofFileName file w.catalog.options.allowJs) source.text) := by
  rw [outline, parsed?_of_buffer h, Option.map_some, Option.getD_some]

theorem syntaxErrors_of_buffer {source : Entered} (h : w.catalog.buffers.get? file = some source) :
    w.syntaxErrors parser file = if w.diagnostics.noSyntaxValidation then [] else
      Diagnostic.ofSource (.parse parser file (some source.version)
        (.ofFileName file w.catalog.options.allowJs) source.text) := by
  rw [syntaxErrors, parsed?_of_buffer h, Option.map_some, Option.getD_some]

end Worker

end ScriptLens
