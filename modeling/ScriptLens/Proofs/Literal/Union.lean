import ScriptLens.Proofs.Literal.Latest
import ScriptLens.Source.ParseTable
import ScriptLens.Worker.Basic

namespace ScriptLens

open Declaration

namespace Constants

theorem get?_index (c : Constants) (t : ParsedSource) (path : String) :
    (c.index t).get? path = ((ofSources [t]).get? path).or (c.get? path) := by
  rw [index_eq, get?_foldl_declare, get?_ofSources, List.flatMap_singleton]

theorem get?_ofSources_append (a b : List ParsedSource) (path : String) :
    (ofSources (a ++ b)).get? path = ((ofSources b).get? path).or ((ofSources a).get? path) := by
  rw [get?_ofSources, get?_ofSources, get?_ofSources, List.flatMap_append, latest?_append]

theorem resolve?_ofSources_append (a b : List ParsedSource) (source : String) (n : Node) :
    (ofSources (a ++ b)).resolve? source n =
      ((ofSources b).resolve? source n).or ((ofSources a).resolve? source n) := by
  simp only [resolve?, get?_ofSources_append]
  cases keys? source n <;> rfl

theorem ofSources_concat (a : List ParsedSource) (t : ParsedSource) :
    ofSources (a ++ [t]) = (ofSources a).index t := by
  simp [ofSources]

section again

variable {c : Constants} {ds : List Declaration}

theorem keys_foldl_declare (h : ∀ d ∈ ds, d.value ≠ none → d.path ∈ c.keys) :
    (ds.foldl declare c).keys = c.keys := by
  induction ds generalizing c with
  | nil => rfl
  | cons d ds ih =>
      have hkeys : (c.declare d).keys = c.keys := by
        rw [declare]
        cases hvalue : d.value with
        | none => rfl
        | some value =>
            have hmem := h d List.mem_cons_self (by simp [hvalue])
            rw [Table.keys_insert, if_pos hmem]
      rw [List.foldl_cons, ih, hkeys]
      intro d' hd' hvalue
      rw [hkeys]
      exact h d' (List.mem_cons_of_mem _ hd') hvalue

theorem index_index (c : Constants) (t : ParsedSource) : (c.index t).index t = c.index t := by
  apply Table.ext_get?
  · rw [index_eq (c.index t)]
    apply keys_foldl_declare
    intro d hd hvalue
    -- a literal that is declared has some value, though perhaps that of a later declaration
    have hlatest : latest? d.path (ofSource t) ≠ none := fun hnone =>
      hvalue (latest?_eq_none_iff.1 hnone d hd rfl)
    rw [Table.mem_keys_iff, index_eq, get?_foldl_declare, Option.isSome_or,
      Option.isSome_iff_ne_none.2 hlatest, Bool.true_or]
  · intro path
    rw [get?_index, get?_index, ← Option.or_assoc, Option.or_self]

end again

def PathsApart (ts : List ParsedSource) : Prop :=
  ts.Pairwise fun t u => (ofSources [t]).keys.Disjoint (ofSources [u]).keys

instance (ts : List ParsedSource) : Decidable (PathsApart ts) :=
  inferInstanceAs (Decidable (ts.Pairwise fun t u =>
    ∀ path, path ∈ (ofSources [t]).keys → path ∈ (ofSources [u]).keys → False))

theorem get?_eq_some_iff_of_apart {ts : List ParsedSource} (h : PathsApart ts) {path : String}
    {value : Literal} :
    (ofSources ts).get? path = some value ↔ ∃ t ∈ ts, (ofSources [t]).get? path = some value := by
  induction ts generalizing value with
  | nil => simp [ofSources, Table.get?, Table.empty]
  | cons t ts ih =>
      obtain ⟨hapart, hrest⟩ := List.pairwise_cons.1 h
      rw [← List.singleton_append, get?_ofSources_append, Option.or_eq_some_iff, ih hrest,
        List.singleton_append, List.exists_mem_cons_iff, or_comm]
      refine or_congr_left (and_iff_right_of_imp fun hfirst => ?_)
      -- a path of the first source is no path of a later one
      rw [Option.eq_none_iff_forall_ne_some]
      intro other hother
      obtain ⟨u, hu, hlater⟩ := (ih hrest).1 hother
      exact hapart u hu (Table.mem_keys_of_get? hfirst) (Table.mem_keys_of_get? hlater)

theorem PathsApart.perm {ts us : List ParsedSource} (h : PathsApart ts) (hperm : us.Perm ts) :
    PathsApart us :=
  (hperm.pairwise_iff fun hdisjoint => List.disjoint_symm hdisjoint).2 h

theorem get?_perm {ts us : List ParsedSource} (hperm : us.Perm ts) (h : PathsApart ts)
    (path : String) : (ofSources us).get? path = (ofSources ts).get? path := by
  apply Option.ext
  intro value
  rw [get?_eq_some_iff_of_apart h, get?_eq_some_iff_of_apart (h.perm hperm)]
  exact exists_congr fun t => and_congr_left fun _ => hperm.mem_iff

end Constants

namespace Worker

theorem references_of_parsed? {parser : Parser} {w : Worker} {file : String} {t : ParsedSource}
    (h : w.parsed? parser file = some t) (roots : List String) :
    w.references parser file roots =
      .ofSource (fun source n => ((Constants.ofSources [t]).resolve? source n).or
        ((Constants.ofSources (w.catalog.auxiliary.keys.filterMap
          (w.parsed? parser))).resolve? source n)) roots t := by
  rw [references, h]
  change References.ofSource (w.constants parser t).resolve? roots t = _
  congr 1
  funext source n
  exact Constants.resolve?_ofSources_append _ _ source n

end Worker

namespace Constants

/-- The constants of two lists of sources are a union in which the second list comes first. To enter
a source again changes nothing, and no path is lost. A request for references looks into the
constants of its own file before those of the auxiliary declarations. Sources that share no path may
come in any order. -/
theorem later_sources_first (a b : List ParsedSource) :
    (∀ path, (ofSources (a ++ b)).get? path =
      ((ofSources b).get? path).or ((ofSources a).get? path)) ∧
    (∀ t, ofSources (a ++ [t, t]) = ofSources (a ++ [t])) ∧
    (ofSources a).size ≤ (ofSources (a ++ b)).size ∧
    (∀ (parser : Parser) (w : Worker) (file : String) (roots : List String) (t : ParsedSource),
      w.parsed? parser file = some t →
        let own := ofSources [t]
        let auxiliary := ofSources (w.catalog.auxiliary.keys.filterMap (w.parsed? parser))
        (w.respond parser (.references file roots)).1 = .ok (.references (.ofSource
          (fun source n => (own.resolve? source n).or (auxiliary.resolve? source n)) roots t))) ∧
    (a.Perm b → PathsApart b →
      (ofSources a).entries.Perm (ofSources b).entries ∧
      ∀ path, (ofSources a).get? path = (ofSources b).get? path) := by
  refine ⟨get?_ofSources_append a b, ?_, ?_, ?_, ?_⟩
  · intro t
    rw [List.append_cons, ofSources_concat, ofSources_concat, index_index]
  · apply Table.size_le_of_isSome
    intro path hpath
    rw [get?_ofSources_append, Option.isSome_or, hpath, Bool.or_true]
  · intro parser w file roots t ht own auxiliary
    rw [Worker.respond, Worker.references_of_parsed? ht]
  · intro hperm hapart
    have hget := get?_perm hperm hapart
    exact ⟨Table.entries_perm hget, hget⟩

/-- An auxiliary enum has a member that a property of the file itself hides. The constant `k` shares
no path with the enum. -/
theorem later_sources_first_hidden :
    let node (type : String) (start stop : UInt64) (fields : List Field) (below : List Node) :
        Node := .mk ⟨type, start, stop, 0, start, true, false, false, false, fields⟩ below
    let keyword : Node := .mk ⟨"const", 0, 5, 0, 0, false, false, false, false, []⟩ []
    let enumText := "enum A \x7b x = \"u\" \x7d"
    let enumTree := node "enum_declaration" 0 18 []
      [node "identifier" 5 6 [.name] [],
       node "enum_body" 7 18 [.body] [node "enum_assignment" 9 16 []
        [node "property_identifier" 9 10 [.name] [], node "string" 13 16 [.value] []]]]
    let text := "const A = \x7b x: 7 \x7d\nT[A.x]"
    let tree := node "program" 0 25 []
      [node "lexical_declaration" 0 18 []
        [keyword, node "variable_declarator" 6 18 []
          [node "identifier" 6 7 [.name] [],
           node "object" 10 18 [.value] [node "pair" 12 16 []
            [node "property_identifier" 12 13 [.key] [], node "number" 15 16 [.value] []]]]],
       node "subscript_expression" 19 25 []
        [node "identifier" 19 20 [.object] [],
         node "member_expression" 21 24 [.index]
          [node "identifier" 21 22 [.object] [], node "property_identifier" 23 24 [.property] []]]]
    let number : ParsedSource := ⟨"k.ts", none, .ts, "const k = 1",
      node "lexical_declaration" 0 11 []
        [keyword, node "variable_declarator" 6 11 []
          [node "identifier" 6 7 [.name] [], node "number" 10 11 [.value] []]]⟩
    let enum : ParsedSource := ⟨"A.d.ts", none, .ts, enumText, enumTree⟩
    let file : ParsedSource := ⟨"a.ts", some ⟨1⟩, .ts, text, tree⟩
    let parser := ParseTable.parser ⟨[(.typescript, enumText, enumTree), (.typescript, text, tree)]⟩
    let w : Worker :=
      { catalog := { buffers := .insert .empty "a.ts" (.live ⟨text, ⟨1⟩⟩)
                     auxiliary := .ofList [("A.d.ts", .declaration ⟨enumText, ⟨1⟩⟩)]
                     options := {} }
        diagnostics := {} }
    w.parsed? parser "a.ts" = some file ∧
    (w.respond parser (.references "a.ts" ["T"])).1 =
      .ok (.references ⟨.ofList [("T", .ofNames ["7"])]⟩) ∧
    PathsApart [enum, number] ∧
    (ofSources [number, enum]).entries.Perm (ofSources [enum, number]).entries := by
  intro node keyword enumText enumTree text tree number enum file parser w
  have hparsed : w.parsed? parser "a.ts" = some file := rfl
  have hapart : PathsApart [enum, number] := by decide +kernel
  obtain ⟨-, -, -, hreply, -⟩ := later_sources_first [] []
  obtain ⟨-, -, -, -, hperm⟩ := later_sources_first [number, enum] [enum, number]
  refine ⟨hparsed, ?_, hapart, (hperm (.swap ..) hapart).1⟩
  rw [hreply parser w "a.ts" ["T"] file hparsed]
  decide +kernel

end Constants

end ScriptLens
