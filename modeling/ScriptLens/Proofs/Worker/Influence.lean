import ScriptLens.Proofs.Worker.Dependence
import ScriptLens.Source.ParseTable

namespace ScriptLens.Worker

def after (parser : Parser) (w : Worker) (requests : List Request) : Worker :=
  requests.foldl (fun w request => (w.respond parser request).2) w

def Reachable (parser : Parser) (w : Worker) : Prop :=
  ∃ config requests, (start config).after parser requests = w

variable {parser : Parser} {w w' : Worker} {file : String}

theorem apart_change (hw : w.catalog.Apart) {result : Except CatalogError Catalog}
    (hok : ∀ c, result = .ok c → c.Apart) : (w.change result).2.catalog.Apart := by
  cases result with
  | ok c => exact hok c rfl
  | error e => exact hw

theorem apart_respond (hw : w.catalog.Apart) (request : Request) :
    (w.respond parser request).2.catalog.Apart := by
  cases request with
  | syncBuffer file version text => exact apart_change hw fun _ h => hw.sync h
  | closeBuffer file => exact apart_change hw fun _ h => Except.ok.inj h ▸ hw.close file
  | syncLibs libs => exact apart_change hw fun _ h => hw.setAuxiliary h
  | updateOptions options =>
      exact apart_change hw fun _ h => Except.ok.inj h ▸ hw.setOptions options
  | listFiles | version | text | outline | references | diagnostics => exact hw

theorem apart_after (hw : w.catalog.Apart) (requests : List Request) :
    (w.after parser requests).catalog.Apart := by
  induction requests generalizing w with
  | nil => exact hw
  | cons request requests ih => exact ih (apart_respond hw request)

theorem Reachable.apart (hw : w.Reachable parser) : w.catalog.Apart := by
  obtain ⟨config, requests, rfl⟩ := hw
  exact apart_after (Catalog.apart_empty config.compiler) requests

theorem parsed?_congr (hversion : w.catalog.version? file = w'.catalog.version? file)
    (htext : w.catalog.text? file = w'.catalog.text? file)
    (hjs : w.catalog.options.allowJs = w'.catalog.options.allowJs) :
    w.parsed? parser file = w'.parsed? parser file := by
  unfold parsed? Catalog.dialect
  rw [hversion, htext, hjs]

/-- Two workers that show the same version and text of a file, and agree on whether plain script is
allowed, outline it alike. They find the same faults in it if they agree on whether to look for
them, and the same references if they have the same declaration files. -/
theorem answers_eq_of_same_source (hw : w.Reachable parser) (hw' : w'.Reachable parser)
    (hversion : w.catalog.version? file = w'.catalog.version? file)
    (htext : w.catalog.text? file = w'.catalog.text? file)
    (hjs : w.catalog.options.allowJs = w'.catalog.options.allowJs) :
    (w.respond parser (.outline file)).1 = (w'.respond parser (.outline file)).1 ∧
    (w.diagnostics.noSyntaxValidation = w'.diagnostics.noSyntaxValidation →
      (w.respond parser (.diagnostics file)).1 = (w'.respond parser (.diagnostics file)).1) ∧
    (w.catalog.auxiliary = w'.catalog.auxiliary → ∀ roots,
      (w.respond parser (.references file roots)).1 =
        (w'.respond parser (.references file roots)).1) := by
  have hparsed : w.parsed? parser file = w'.parsed? parser file := parsed?_congr hversion htext hjs
  refine ⟨?_, ?_, ?_⟩
  · simp only [respond, outline, hparsed]
  · intro hoff
    simp only [respond, syntaxErrors, hparsed, hoff]
  · intro hlibs roots
    have hrefs : w.references parser file roots = w'.references parser file roots :=
      references_congr hw.apart hw'.apart hjs hlibs hparsed fun _ => Iff.rfl
    simp only [respond, hrefs]

/-- A worker that has just been given a declaration file and a source, and one of another target
that has also seen another buffer, an earlier version and a query, resolve `T[K.id]` alike. -/
theorem answers_eq_of_same_source_enum :
    let node (type : String) (start stop : UInt64) (fields : List Field) (below : List Node) :
        Node := .mk ⟨type, start, stop, 0, start, true, false, false, false, fields⟩ below
    let access := node "subscript_expression" 0 7 []
      [node "identifier" 0 1 [.object] [],
       node "member_expression" 2 6 [.index]
        [node "identifier" 2 3 [.object] [], node "property_identifier" 4 6 [.property] []]]
    let declared := node "enum_declaration" 0 19 []
      [node "identifier" 5 6 [.name] [],
       node "enum_body" 7 19 [.body] [node "enum_assignment" 9 17 []
        [node "property_identifier" 9 11 [.name] [], node "string" 14 17 [.value] []]]]
    let enum := "enum K \x7b id = \"x\" \x7d"
    let parser := ParseTable.parser
      ⟨[(.typescript, "T[K.id]", access), (.typescript, enum, declared)]⟩
    let libs : Dict Source := .ofList [("k.d.ts", ⟨enum, ⟨1⟩⟩)]
    let w := (start {}).after parser [.syncLibs libs, .syncBuffer "a.ts" ⟨2⟩ "T[K.id]"]
    let w' := (start { compiler := { target := .es5 } }).after parser
      [.syncBuffer "b.ts" ⟨1⟩ "", .syncBuffer "a.ts" ⟨1⟩ "", .outline "a.ts",
       .syncBuffer "a.ts" ⟨2⟩ "T[K.id]", .syncLibs libs]
    w.catalog ≠ w'.catalog ∧ w.catalog.version? "a.ts" = w'.catalog.version? "a.ts" ∧
    w.catalog.text? "a.ts" = w'.catalog.text? "a.ts" ∧
    w.catalog.options.allowJs = w'.catalog.options.allowJs ∧
    w.catalog.auxiliary = w'.catalog.auxiliary ∧
    (w'.respond parser (.references "a.ts" ["T"])).1 =
      .ok (.references ⟨.ofList [("T", .ofNames ["x"])]⟩) := by
  intro node access declared enum parser libs w w'
  have hne : w.catalog ≠ w'.catalog := by decide +kernel
  have hversion : w.catalog.version? "a.ts" = w'.catalog.version? "a.ts" := by decide +kernel
  have htext : w.catalog.text? "a.ts" = w'.catalog.text? "a.ts" := by decide +kernel
  have hjs : w.catalog.options.allowJs = w'.catalog.options.allowJs := by decide +kernel
  have hlibs : w.catalog.auxiliary = w'.catalog.auxiliary := by decide +kernel
  have hanswer : (w.respond parser (.references "a.ts" ["T"])).1 =
      .ok (.references ⟨.ofList [("T", .ofNames ["x"])]⟩) := by decide +kernel
  have hw : w.Reachable parser := ⟨_, _, rfl⟩
  have hw' : w'.Reachable parser := ⟨_, _, rfl⟩
  have hsame := (answers_eq_of_same_source hw hw' hversion htext hjs).2.2 hlibs ["T"]
  exact ⟨hne, hversion, htext, hjs, hlibs, hsame.symm.trans hanswer⟩

end ScriptLens.Worker
